import Iasql.Aws
import Iasql.Calculus.Separated

namespace Iasql.ContainerDefinitions

open Aws

section Names

-- s.split(sep)
def parts (sep : Char) (s : String) : List String := (s.toList.splitOn sep).map String.ofList

def lastPart (s : String) : String := ((parts '/' s).getLast?).getD ""

variable {sep : Char} {s a b : String}

theorem not_mem_of_mem_parts {part : String} (h : part ∈ parts sep s) : sep ∉ part.toList := by
  obtain ⟨cs, hcs, rfl⟩ := List.mem_map.mp h
  rw [String.toList_ofList]
  exact Separated.not_mem_of_mem_splitOn hcs

theorem parts_of_not_mem (h : sep ∉ s.toList) : parts sep s = [s] := by
  rw [parts, Separated.splitOn_of_not_mem h]
  simp

theorem toList_joined : (a ++ String.singleton sep ++ b).toList = a.toList ++ sep :: b.toList := by
  simp

theorem parts_append (h : sep ∉ a.toList) :
    parts sep (a ++ String.singleton sep ++ b) = a :: parts sep b := by
  rw [parts, toList_joined, Separated.splitOn_append_cons _ h, List.map_cons, String.ofList_toList]
  rfl

theorem first_part_iff : (parts sep s)[0]? = some s ↔ sep ∉ s.toList := by
  constructor
  · exact fun h => not_mem_of_mem_parts (List.mem_of_getElem? h)
  · intro h
    rw [parts_of_not_mem h]
    rfl

theorem lastPart_append (a b : String) : lastPart (a ++ "/" ++ b) = lastPart b := by
  have hparts : parts '/' (a ++ "/" ++ b) = parts '/' a ++ parts '/' b := by
    rw [parts, show "/" = String.singleton '/' from rfl, toList_joined, Separated.splitOn_append,
      List.map_append]
    rfl
  have hne : parts '/' b ≠ [] := fun h => Separated.splitOn_ne_nil _ (List.map_eq_nil_iff.mp h)
  rw [lastPart, hparts, List.getLast?_append_of_ne_nil _ hne]
  rfl

theorem lastPart_eq_iff : lastPart s = s ↔ '/' ∉ s.toList := by
  constructor
  · intro h
    have hne : parts '/' s ≠ [] := fun hnil => Separated.splitOn_ne_nil _ (List.map_eq_nil_iff.mp hnil)
    rw [lastPart, List.getLast?_eq_some_getLast hne, Option.getD_some] at h
    exact not_mem_of_mem_parts (h ▸ List.getLast_mem hne)
  · intro h
    rw [lastPart, parts_of_not_mem h]
    rfl

end Names

section Images

@[ext] structure Decoded where
  containerImage : Option String
  digest : Option String := none
  tag : Option String := none
deriving DecidableEq

-- a digest is looked for before a tag, and what follows a second separator is dropped
def decodeImage : Option String → Decoded
  | none => { containerImage := none }
  | some image =>
    if '@' ∈ image.toList then
      { containerImage := (parts '@' image)[0]?, digest := (parts '@' image)[1]? }
    else if ':' ∈ image.toList then
      { containerImage := (parts ':' image)[0]?, tag := (parts ':' image)[1]? }
    else { containerImage := some image }

-- an image that is undefined is written as such in a template
def encodeImage (image digest tag : Option String) : Option String :=
  let text := image.getD "undefined"
  if Aws.truthy digest then some (text ++ "@" ++ digest.getD "")
  else if Aws.truthy tag then some (text ++ ":" ++ tag.getD "")
  else image

-- a digest or a tag that is read back as it is written
def Suffix : Option String → Option String → Prop
  | none, none => True
  | some digest, none => digest ≠ "" ∧ '@' ∉ digest.toList
  | none, some tag => tag ≠ "" ∧ '@' ∉ tag.toList ∧ ':' ∉ tag.toList
  | some _, some _ => False

variable {base : String} {digest tag : Option String}

theorem truthy_eq_some {o : Option String} (h : Aws.truthy o = true) : ∃ s, o = some s ∧ s ≠ "" := by
  obtain ⟨s, rfl⟩ := Aws.truthy_some h
  exact ⟨s, rfl, by simpa [Aws.truthy] using h⟩

theorem falsy_cases {o : Option String} (h : Aws.truthy o = false) : o = none ∨ o = some "" := by
  cases o with
  | none => exact .inl rfl
  | some s => exact .inr (by simpa [Aws.truthy] using h)

theorem decode_digest (d : String) (hbase : '@' ∉ base.toList) :
    decodeImage (some (base ++ "@" ++ d)) = ⟨some base, (parts '@' d)[0]?, none⟩ := by
  have hmem : '@' ∈ (base ++ "@" ++ d).toList := by simp
  have hparts : parts '@' (base ++ "@" ++ d) = base :: parts '@' d := parts_append hbase
  rw [decodeImage, if_pos hmem, hparts]
  rfl

theorem decode_tag (t : String) (hbase : ':' ∉ base.toList) (hat : '@' ∉ (base ++ ":" ++ t).toList) :
    decodeImage (some (base ++ ":" ++ t)) = ⟨some base, none, (parts ':' t)[0]?⟩ := by
  have hmem : ':' ∈ (base ++ ":" ++ t).toList := by simp
  have hparts : parts ':' (base ++ ":" ++ t) = base :: parts ':' t := parts_append hbase
  rw [decodeImage, if_neg hat, if_pos hmem, hparts]
  rfl

theorem decode_plain (hat : '@' ∉ base.toList) (hcolon : ':' ∉ base.toList) :
    decodeImage (some base) = ⟨some base, none, none⟩ := by
  rw [decodeImage, if_neg hat, if_neg hcolon]

theorem decode_digest_iff {d : String} (hd : d ≠ "") : decodeImage (some (base ++ "@" ++ d)) =
    ⟨some base, some d, tag⟩ ↔ '@' ∉ base.toList ∧ Suffix (some d) tag := by
  constructor
  · intro h
    have hmem : '@' ∈ (base ++ "@" ++ d).toList := by simp
    have hbase : '@' ∉ base.toList := by
      rw [decodeImage, if_pos hmem] at h
      exact not_mem_of_mem_parts (List.mem_of_getElem? (congrArg Decoded.containerImage h))
    rw [decode_digest d hbase] at h
    obtain ⟨-, hfirst, htag⟩ := Decoded.mk.inj h
    subst htag
    exact ⟨hbase, hd, first_part_iff.mp hfirst⟩
  · rintro ⟨hbase, hsuffix⟩
    cases tag with
    | none => rw [decode_digest d hbase, first_part_iff.mpr hsuffix.2]
    | some t => exact hsuffix.elim

theorem decode_tag_iff {t : String} (ht : t ≠ "") : decodeImage (some (base ++ ":" ++ t)) =
    ⟨some base, digest, some t⟩ ↔ '@' ∉ base.toList ∧ ':' ∉ base.toList ∧ Suffix digest (some t) := by
  constructor
  · intro h
    have hmem : ':' ∈ (base ++ ":" ++ t).toList := by simp
    have hat : '@' ∉ (base ++ ":" ++ t).toList := by
      intro hat
      rw [decodeImage, if_pos hat] at h
      cases congrArg Decoded.tag h
    have hbase : ':' ∉ base.toList := by
      rw [decodeImage, if_neg hat, if_pos hmem] at h
      exact not_mem_of_mem_parts (List.mem_of_getElem? (congrArg Decoded.containerImage h))
    rw [decode_tag t hbase hat] at h
    obtain ⟨-, hdigest, hfirst⟩ := Decoded.mk.inj h
    subst hdigest
    simp only [String.toList_append, List.mem_append, not_or] at hat
    exact ⟨hat.1.1, hbase, ht, hat.2, first_part_iff.mp hfirst⟩
  · rintro ⟨hat, hcolon, hsuffix⟩
    cases digest with
    | none =>
      have hmem : '@' ∉ (base ++ ":" ++ t).toList := by
        simp only [String.toList_append, List.mem_append, not_or]
        exact ⟨⟨hat, by decide⟩, hsuffix.2.1⟩
      rw [decode_tag t hcolon hmem, first_part_iff.mpr hsuffix.2.2]
    | some d => exact hsuffix.elim

theorem decode_plain_iff : decodeImage (some base) = ⟨some base, digest, tag⟩ ↔
    '@' ∉ base.toList ∧ ':' ∉ base.toList ∧ digest = none ∧ tag = none := by
  constructor
  · intro h
    have hat : '@' ∉ base.toList := by
      intro hat
      rw [decodeImage, if_pos hat] at h
      exact not_mem_of_mem_parts (List.mem_of_getElem? (congrArg Decoded.containerImage h)) hat
    have hcolon : ':' ∉ base.toList := by
      intro hcolon
      rw [decodeImage, if_neg hat, if_pos hcolon] at h
      exact not_mem_of_mem_parts (List.mem_of_getElem? (congrArg Decoded.containerImage h)) hcolon
    rw [decode_plain hat hcolon] at h
    obtain ⟨-, hdigest, htag⟩ := Decoded.mk.inj h
    exact ⟨hat, hcolon, hdigest.symm, htag.symm⟩
  · rintro ⟨hat, hcolon, rfl, rfl⟩
    exact decode_plain hat hcolon

-- what is put together is taken apart again
theorem decode_encode_iff : decodeImage (encodeImage (some base) digest tag) = ⟨some base, digest, tag⟩ ↔
    '@' ∉ base.toList ∧ (digest = none → ':' ∉ base.toList) ∧ Suffix digest tag := by
  cases hdigest : Aws.truthy digest with
  | true =>
    obtain ⟨d, rfl, hd⟩ := truthy_eq_some hdigest
    have hencode : encodeImage (some base) (some d) tag = some (base ++ "@" ++ d) := by
      simp [encodeImage, hdigest]
    rw [hencode, decode_digest_iff hd]
    exact and_congr_right fun _ => (and_iff_right nofun).symm
  | false =>
    cases htag : Aws.truthy tag with
    | true =>
      obtain ⟨t, rfl, ht⟩ := truthy_eq_some htag
      have hencode : encodeImage (some base) digest (some t) = some (base ++ ":" ++ t) := by
        simp [encodeImage, hdigest, htag]
      rw [hencode, decode_tag_iff ht]
      rcases falsy_cases hdigest with rfl | rfl
      · simp
      · simp [Suffix]
    | false =>
      have hencode : encodeImage (some base) digest tag = some base := by
        simp [encodeImage, hdigest, htag]
      rw [hencode, decode_plain_iff]
      rcases falsy_cases hdigest with rfl | rfl <;> rcases falsy_cases htag with rfl | rfl <;> simp [Suffix]

-- the base is found where it has no separator and the digest and the tag are
theorem containerImage_eq (hat : '@' ∉ base.toList) (hcolon : ':' ∉ base.toList)
    (htag : (decodeImage (encodeImage (some base) digest tag)).tag = tag) :
    (decodeImage (encodeImage (some base) digest tag)).containerImage = some base := by
  rw [encodeImage, Option.getD_some] at htag ⊢
  split at htag
  · next hdigest =>
    rw [if_pos hdigest]
    exact congrArg Decoded.containerImage (decode_digest _ hat)
  · next hdigest =>
    rw [if_neg hdigest]
    split at htag
    · next htruthy =>
      rw [if_pos htruthy]
      obtain ⟨t, rfl, -⟩ := truthy_eq_some htruthy
      rw [Option.getD_some] at htag ⊢
      have hnone : '@' ∉ (base ++ ":" ++ t).toList := by
        intro hmem
        rw [decodeImage, if_pos hmem] at htag
        cases htag
      exact congrArg Decoded.containerImage (decode_tag t hcolon hnone)
    · next htruthy =>
      rw [if_neg htruthy]
      exact congrArg Decoded.containerImage (decode_plain hat hcolon)

theorem decode_clean_iff (hat : '@' ∉ base.toList) (hcolon : ':' ∉ base.toList) :
    ((decodeImage (encodeImage (some base) digest tag)).digest = digest ∧
      (decodeImage (encodeImage (some base) digest tag)).tag = tag) ↔ Suffix digest tag := by
  have hwhole : decodeImage (encodeImage (some base) digest tag) = ⟨some base, digest, tag⟩ ↔
      Suffix digest tag := by
    rw [decode_encode_iff, and_iff_right hat, and_iff_right fun _ => hcolon]
  rw [← hwhole]
  constructor
  · rintro ⟨hdigest, htag⟩
    exact Decoded.ext (containerImage_eq hat hcolon htag) hdigest htag
  · intro h
    rw [h]
    exact ⟨rfl, rfl⟩

end Images

end Iasql.ContainerDefinitions
