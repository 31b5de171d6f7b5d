import Mathlib.Data.List.DropRight
import Iasql.Calculus.OrderedMap
import Iasql.ContainerImages
import Iasql.LazyDep

namespace Iasql.Apt

open Aws ContainerDefinitions OrderedMap

section Text

-- the white space and the line terminators of String.prototype.trim
def isWhiteSpace (c : Char) : Bool :=
  [0x9, 0xA, 0xB, 0xC, 0xD, 0x20, 0xA0, 0x1680, 0x2000, 0x2001, 0x2002, 0x2003, 0x2004, 0x2005, 0x2006, 0x2007,
    0x2008, 0x2009, 0x200A, 0x2028, 0x2029, 0x202F, 0x205F, 0x3000, 0xFEFF].contains c.toNat

def isLineTerminator (c : Char) : Bool := [0xA, 0xD, 0x2028, 0x2029].contains c.toNat

def trim (s : String) : String := String.ofList ((s.toList.dropWhile isWhiteSpace).rdropWhile isWhiteSpace)

-- replace(/\/.*$/, '') cuts at the first slash that no line terminator follows
def withoutSource : List Char → List Char
  | [] => []
  | c :: cs => if c = '/' ∧ ¬ cs.any isLineTerminator then [] else c :: withoutSource cs

-- the lines after the first one, less the empty ones
def linesOf (out : String) : List String := ((parts '\n' out).drop 1).filter (· != "")

end Text

section Mapper

structure Package where
  id : Option Nat := none
  server : String
  package : String
  version : Option String
  architecture : Option String
  description : Option String := none
  installed : Bool := false
  upgradable : Bool := false
deriving DecidableEq

def Package.packageId (p : Package) : String :=
  generateId [p.server, p.package, p.version.getD "", p.architecture.getD ""]

-- what apt prints on a server
structure Output where
  allVersions : String
  installed : String
  upgradable : String

-- the names and the output of the servers, in the order in which they have answered
abbrev Servers : Type := List (String × Output)

def packageOf (server line : String) (description : Option String) : Package :=
  let fields := parts ' ' line
  { server
    package := String.ofList (withoutSource (fields[0]?.getD "").toList)
    version := fields[1]?
    architecture := fields[2]?
    description }

-- a main line with the line after it
def pairs : List String → List (String × Option String)
  | [] => []
  | [mainLine] => [(mainLine, none)]
  | mainLine :: description :: rest => (mainLine, some description) :: pairs rest

def listed (server allVersions : String) : List (String × Package) :=
  ofList ((pairs ((linesOf allVersions).map trim)).map fun l =>
    let p := packageOf server l.1 l.2
    (p.packageId, p))

def cannotSet (field : String) : Thrown :=
  .error ("Cannot set properties of undefined (setting '" ++ field ++ "')")

def mark (field : String) (set : Package → Package) (server : String) (packagesObj : List (String × Package))
    (packageLine : String) : Except Thrown (List (String × Package)) :=
  let packageId := (packageOf server packageLine none).packageId
  match find packageId packagesObj with
  | none => .error (cannotSet field)
  | some p => .ok (put packageId (set p) packagesObj)

def setInstalled (p : Package) : Package := { p with installed := true }

def setUpgradable (p : Package) : Package := { p with upgradable := true }

def readServer (server : String) (out : Output) : Except Thrown (List Package) := do
  let packagesObj ← (linesOf out.installed).foldlM (mark "installed" setInstalled server) (listed server out.allVersions)
  let packagesObj ← (linesOf out.upgradable).foldlM (mark "upgradable" setUpgradable server) packagesObj
  return packagesObj.map Prod.snd

def read (servers : Servers) : Except Thrown (List Package) := do
  let packages ← servers.mapM fun s => readServer s.1 s.2
  return packages.flatten

end Mapper

section Printed

-- no white space, and no separator of an id
structure Word where
  text : String
  nonempty : text.toList ≠ []
  plain : ∀ c ∈ text.toList, isWhiteSpace c = false ∧ c ≠ '|'

-- what apt prints of a version of a package
structure Entry where
  package : Word
  repositories : List String := []
  version : Word
  architecture : Word
  states : List String := []
  description : String := ""
  package_plain : '/' ∉ package.text.toList
  repositories_plain : ∀ r ∈ repositories, ∀ c ∈ r.toList, isWhiteSpace c = false
  states_plain : ∀ s ∈ states, '\n' ∉ s.toList
  description_plain : '\n' ∉ description.toList

def Entry.key (e : Entry) : String × String × String := (e.package.text, e.version.text, e.architecture.text)

def Entry.source (e : Entry) : String := e.package.text ++ "/" ++ ",".intercalate e.repositories

def Entry.status (e : Entry) : String :=
  if e.states.isEmpty then "" else " [" ++ ",".intercalate e.states ++ "]"

def Entry.mainLine (e : Entry) : String :=
  e.source ++ " " ++ (e.version.text ++ " " ++ (e.architecture.text ++ e.status))

def Entry.descriptionLine (e : Entry) : String := "  " ++ e.description

def unlines : List String → String
  | [] => ""
  | l :: ls => l ++ "\n" ++ unlines ls

-- the entries that are printed as installed or as upgradable are entries of the first list
structure Listing where
  header : String := "Listing..."
  entries : List Entry
  installed : List Entry := []
  upgradable : List Entry := []
  header_plain : '\n' ∉ header.toList
  installed_listed : ∀ e ∈ installed, ∃ f ∈ entries, f.key = e.key
  upgradable_listed : ∀ e ∈ upgradable, ∃ f ∈ entries, f.key = e.key

def Listing.print (l : Listing) : Output where
  allVersions := unlines (l.header :: l.entries.flatMap fun e => [e.mainLine, e.descriptionLine, ""])
  installed := unlines (l.header :: l.installed.map Entry.mainLine)
  upgradable := unlines (l.header :: l.upgradable.map Entry.mainLine)

-- the record of an entry; describe: what is kept of its description
def record (describe : String → String) (server : String) (l : Listing) (e : Entry) : Package where
  server
  package := e.package.text
  version := some e.version.text
  architecture := some e.architecture.text
  description := some (describe e.description)
  installed := (l.installed.map Entry.key).contains e.key
  upgradable := (l.upgradable.map Entry.key).contains e.key

def Package.key (p : Package) : String × String × Option String × Option String :=
  (p.server, p.package, p.version, p.architecture)

-- the servers by their unique names
structure Fleet where
  servers : List (String × Listing)
  unique : (servers.map Prod.fst).Nodup

def Fleet.print (fleet : Fleet) : Servers := fleet.servers.map fun s => (s.1, s.2.print)

-- one record for each server, package, version and architecture: that of the last entry printed for it
structure Exact (describe : String → String) (fleet : Fleet) (out : List Package) : Prop where
  unique : (out.map Package.key).Nodup
  listed : ∀ p, p ∈ out ↔ ∃ s ∈ fleet.servers, ∃ e ∈ s.2.entries,
    lastWith Entry.key s.2.entries e.key = some e ∧ p = record describe s.1 s.2 e

end Printed

section Lines

variable {s : String} {ls : List String}

theorem trim_indented (d : String) : trim ("  " ++ d) = trim d := by
  rw [trim, trim, String.toList_append]
  rfl

theorem trim_of_plain (hhead : ∀ c ∈ s.toList.head?, isWhiteSpace c = false)
    (hlast : ∀ c ∈ s.toList.getLast?, isWhiteSpace c = false) : trim s = s := by
  have hfront : s.toList.dropWhile isWhiteSpace = s.toList := by
    cases hs : s.toList with
    | nil => rfl
    | cons c cs => rw [List.dropWhile_cons_of_neg (by simp [hhead c (by simp [hs])])]
  have hback : s.toList.rdropWhile isWhiteSpace = s.toList := by
    rw [List.rdropWhile_eq_self_iff]
    intro hne
    simp [hlast _ (List.getLast?_eq_some_getLast hne)]
  rw [trim, hfront, hback, String.ofList_toList]

theorem parts_unlines (h : ∀ l ∈ ls, '\n' ∉ l.toList) : parts '\n' (unlines ls) = ls ++ [""] := by
  induction ls with
  | nil => rfl
  | cons l ls ih =>
    obtain ⟨hl, hls⟩ := List.forall_mem_cons.mp h
    rw [unlines, show "\n" = String.singleton '\n' from rfl, parts_append hl, ih hls, List.cons_append]

theorem linesOf_unlines {header : String} (h : ∀ l ∈ header :: ls, '\n' ∉ l.toList) :
    linesOf (unlines (header :: ls)) = ls.filter (· != "") := by
  rw [linesOf, parts_unlines h, List.cons_append, List.drop_one, List.tail_cons, List.filter_append]
  exact List.append_nil _

end Lines

section MainLine

variable {e : Entry}

theorem not_mem_of_not_white {c : Char} {cs : List Char} (hc : isWhiteSpace c = true)
    (h : ∀ d ∈ cs, isWhiteSpace d = false) : c ∉ cs := by
  intro hmem
  rw [h c hmem] at hc
  cases hc

theorem mem_intercalate {α : Type} {c : α} {sep : List α} {xs : List (List α)} (h : c ∈ sep.intercalate xs) :
    c ∈ sep ∨ ∃ x ∈ xs, c ∈ x := by
  induction xs with
  | nil => exact absurd h List.not_mem_nil
  | cons x xs ih =>
    cases xs with
    | nil =>
      rw [List.intercalate_singleton] at h
      exact .inr ⟨x, List.mem_cons_self, h⟩
    | cons y ys =>
      rw [List.intercalate_cons_cons, List.mem_append, List.mem_append] at h
      rcases h with (h | h) | h
      · exact .inr ⟨x, List.mem_cons_self, h⟩
      · exact .inl h
      · rcases ih h with h | ⟨z, hz, h⟩
        · exact .inl h
        · exact .inr ⟨z, List.mem_cons_of_mem _ hz, h⟩

theorem not_mem_word {c : Char} (w : Word) (hc : isWhiteSpace c = true) : c ∉ w.text.toList :=
  not_mem_of_not_white hc fun d hd => (w.plain d hd).1

theorem not_mem_commas {c : Char} {xs : List String} (hc : c ≠ ',') (h : ∀ x ∈ xs, c ∉ x.toList) :
    c ∉ [','].intercalate (xs.map String.toList) := by
  intro hmem
  rcases mem_intercalate hmem with hmem | ⟨y, hy, hmem⟩
  · exact hc (List.mem_singleton.mp hmem)
  · obtain ⟨x, hx, rfl⟩ := List.mem_map.mp hy
    exact h x hx hmem

theorem not_mem_repositories {c : Char} (e : Entry) (hc : isWhiteSpace c = true) :
    c ∉ [','].intercalate (e.repositories.map String.toList) := by
  refine not_mem_commas ?_ fun r hr => not_mem_of_not_white hc (e.repositories_plain r hr)
  rintro rfl
  cases hc

theorem not_mem_source {c : Char} (e : Entry) (hc : isWhiteSpace c = true) : c ∉ e.source.toList := by
  have hslash : c ≠ '/' := by
    rintro rfl
    cases hc
  simp [Entry.source, not_mem_word e.package hc, not_mem_repositories e hc, hslash]

theorem withoutSource_append {n r : List Char} (hn : '/' ∉ n) (hr : ∀ c ∈ r, isWhiteSpace c = false) :
    withoutSource (n ++ '/' :: r) = n := by
  induction n with
  | nil =>
    have hline : ¬ r.any isLineTerminator := by
      rw [List.any_eq_true]
      rintro ⟨c, hc, hterm⟩
      have hwhite := hr c hc
      simp [isLineTerminator, isWhiteSpace] at hterm hwhite
      omega
    rw [List.nil_append, withoutSource, if_pos ⟨rfl, hline⟩]
  | cons c n ih =>
    obtain ⟨hc, hn⟩ := not_or.mp (mt List.mem_cons.mpr hn)
    rw [List.cons_append, withoutSource, if_neg fun h => hc h.1.symm, ih hn]

theorem newline_not_mem_mainLine (e : Entry) : '\n' ∉ e.mainLine.toList := by
  have hnl : isWhiteSpace '\n' = true := by decide
  have hstatus : '\n' ∉ e.status.toList := by
    rw [Entry.status]
    split
    · exact List.not_mem_nil
    · have hstates := not_mem_commas (c := '\n') (by decide) e.states_plain
      simp [hstates]
  simp [Entry.mainLine, not_mem_source e hnl, not_mem_word _ hnl, hstatus]

-- a main line starts with the name of the package
theorem head?_mainLine (e : Entry) : e.mainLine.toList.head? = e.package.text.toList.head? := by
  have hne := e.package.nonempty
  cases hname : e.package.text.toList with
  | nil => exact absurd hname hne
  | cons c cs => simp [Entry.mainLine, Entry.source, hname]

-- and ends with the architecture or with a bracket
theorem getLast?_mainLine (e : Entry) : ∀ c ∈ e.mainLine.toList.getLast?, isWhiteSpace c = false := by
  intro c hc
  by_cases hstates : e.states.isEmpty = true
  · have hline : e.mainLine.toList = (e.source ++ " " ++ e.version.text ++ " ").toList ++ e.architecture.text.toList := by
      simp [Entry.mainLine, Entry.status, hstates]
    rw [hline, List.getLast?_append_of_ne_nil _ e.architecture.nonempty] at hc
    exact (e.architecture.plain c (List.mem_of_getLast? hc)).1
  · have hline : e.mainLine.toList = (e.source ++ " " ++ e.version.text ++ " " ++ e.architecture.text ++ " [" ++
        ",".intercalate e.states).toList ++ [']'] := by
      simp [Entry.mainLine, Entry.status, hstates]
    rw [hline, List.getLast?_concat] at hc
    obtain rfl := Option.some.inj hc
    decide

theorem trim_mainLine (e : Entry) : trim e.mainLine = e.mainLine := by
  refine trim_of_plain (fun c hc => ?_) (getLast?_mainLine e)
  rw [head?_mainLine] at hc
  exact (e.package.plain c (List.mem_of_mem_head? hc)).1

theorem parts_mainLine (e : Entry) :
    ∃ rest, parts ' ' e.mainLine = e.source :: e.version.text :: e.architecture.text :: rest := by
  have hspace : isWhiteSpace ' ' = true := by decide
  rw [Entry.mainLine, show " " = String.singleton ' ' from rfl, parts_append (not_mem_source e hspace),
    parts_append (not_mem_word _ hspace), Entry.status]
  split
  · rw [String.append_empty, parts_of_not_mem (not_mem_word _ hspace)]
    exact ⟨[], rfl⟩
  · have hstatus : e.architecture.text ++ (" [" ++ ",".intercalate e.states ++ "]") =
        e.architecture.text ++ String.singleton ' ' ++ ("[" ++ ",".intercalate e.states ++ "]") := by
      apply String.toList_inj.mp
      simp
    rw [hstatus, parts_append (not_mem_word _ hspace)]
    exact ⟨_, rfl⟩

theorem withoutSource_source (e : Entry) : withoutSource e.source.toList = e.package.text.toList := by
  have hsource : e.source.toList = e.package.text.toList ++ '/' :: [','].intercalate (e.repositories.map String.toList) := by
    simp [Entry.source]
  rw [hsource]
  refine withoutSource_append e.package_plain fun c hc => ?_
  cases hwhite : isWhiteSpace c with
  | false => rfl
  | true => exact absurd hc (not_mem_repositories e hwhite)

theorem packageOf_mainLine (server : String) (d : Option String) (e : Entry) : packageOf server e.mainLine d =
    { server, package := e.package.text, version := some e.version.text, architecture := some e.architecture.text,
      description := d } := by
  obtain ⟨rest, hrest⟩ := parts_mainLine e
  simp [packageOf, hrest, withoutSource_source]

end MainLine

section Records

variable {server : String} {l : Listing} {e f : Entry}

theorem mainLine_ne_empty (e : Entry) : e.mainLine ≠ "" := by
  intro h
  have hhead := head?_mainLine e
  rw [h] at hhead
  cases hname : e.package.text.toList with
  | nil => exact e.package.nonempty hname
  | cons c cs =>
    rw [hname] at hhead
    cases hhead

theorem linesOf_mains {header : String} {es : List Entry} (h : '\n' ∉ header.toList) :
    linesOf (unlines (header :: es.map Entry.mainLine)) = es.map Entry.mainLine := by
  rw [linesOf_unlines (List.forall_mem_cons.mpr ⟨h, List.forall_mem_map.mpr fun e _ => newline_not_mem_mainLine e⟩)]
  exact List.filter_eq_self.mpr (List.forall_mem_map.mpr fun e _ => by simp [mainLine_ne_empty e])

-- an entry has two lines that are not empty, whatever its description
theorem linesOf_allVersions (l : Listing) :
    linesOf l.print.allVersions = l.entries.flatMap fun e => [e.mainLine, e.descriptionLine] := by
  have hplain : ∀ line ∈ l.entries.flatMap fun e => [e.mainLine, e.descriptionLine, ""], '\n' ∉ line.toList := by
    intro line hline
    obtain ⟨e, -, he⟩ := List.mem_flatMap.mp hline
    simp only [List.mem_cons, List.not_mem_nil, or_false] at he
    rcases he with rfl | rfl | rfl
    · exact newline_not_mem_mainLine e
    · simp [Entry.descriptionLine, e.description_plain]
    · exact List.not_mem_nil
  rw [Listing.print, linesOf_unlines (List.forall_mem_cons.mpr ⟨l.header_plain, hplain⟩), List.filter_flatMap]
  refine List.flatMap_congr fun e _ => ?_
  have hdescription : e.descriptionLine ≠ "" := by
    intro h
    have hlist := congrArg String.toList h
    rw [Entry.descriptionLine, String.toList_append] at hlist
    cases hlist
  simp [mainLine_ne_empty e, hdescription]

theorem pairs_flatMap (es : List Entry) :
    pairs ((es.flatMap fun e => [e.mainLine, e.descriptionLine]).map trim) =
      es.map fun e => (e.mainLine, some (trim e.description)) := by
  induction es with
  | nil => rfl
  | cons e es ih =>
    have hdescription : trim e.descriptionLine = trim e.description := trim_indented e.description
    simp only [List.flatMap_cons, List.map_cons, List.cons_append, List.nil_append, pairs, trim_mainLine,
      hdescription, ih]

-- the record of an entry before the other two lists are read
def bare (server : String) (e : Entry) : Package where
  server
  package := e.package.text
  version := some e.version.text
  architecture := some e.architecture.text
  description := some (trim e.description)

theorem listed_print : listed server l.print.allVersions =
    ofList ((l.entries.map (bare server)).map fun p => (p.packageId, p)) := by
  rw [listed, linesOf_allVersions, pairs_flatMap, List.map_map, List.map_map]
  refine congrArg _ (List.map_congr_left fun e _ => ?_)
  simp only [Function.comp, packageOf_mainLine]
  rfl

theorem packageId_eq_iff : (bare server e).packageId = (bare server f).packageId ↔ e.key = f.key := by
  have hwords : ∀ g : Entry, ∀ cs ∈ [g.package.text.toList, g.version.text.toList, g.architecture.text.toList], '|' ∉ cs := by
    intro g cs hcs hmem
    simp only [List.mem_cons, List.not_mem_nil, or_false] at hcs
    rcases hcs with rfl | rfl | rfl
    · exact (g.package.plain _ hmem).2 rfl
    · exact (g.version.plain _ hmem).2 rfl
    · exact (g.architecture.plain _ hmem).2 rfl
  constructor
  · intro h
    have hlist := congrArg String.toList h
    simp only [Package.packageId, generateId, bare, String.toList_ofList, Option.getD_some, List.map_cons, List.map_nil] at hlist
    rw [List.intercalate_cons_cons, List.intercalate_cons_cons, List.append_assoc, List.append_assoc] at hlist
    have hrest := List.append_cancel_left (List.append_cancel_left hlist)
    have hwhole := Separated.intercalate_inj (hwords e) (hwords f) (by simp) (by simp) hrest
    simp only [List.cons.injEq, String.toList_inj, and_true] at hwhole
    exact Prod.ext hwhole.1 (Prod.ext hwhole.2.1 hwhole.2.2)
  · intro h
    simp only [Entry.key, Prod.mk.injEq] at h
    obtain ⟨hpackage, hversion, harchitecture⟩ := h
    simp only [Package.packageId, bare, hpackage, hversion, harchitecture]

theorem lastWith_bare (l : Listing) (e : Entry) :
    lastWith Package.packageId (l.entries.map (bare server)) (bare server e).packageId =
      (lastWith Entry.key l.entries e.key).map (bare server) := by
  rw [lastWith_map, lastWith, lastWith]
  congr 2
  exact List.filter_congr fun f _ => decide_eq_decide.mpr packageId_eq_iff

-- the table of the first list: each key with the last entry printed for it
theorem mem_listed {q : String × Package} : q ∈ listed server l.print.allVersions ↔
    ∃ e ∈ l.entries, lastWith Entry.key l.entries e.key = some e ∧ q = ((bare server e).packageId, bare server e) := by
  rw [listed_print]
  constructor
  · intro hq
    have hlast := (mem_ofList Package.packageId _).mp hq
    obtain ⟨hid, hmem⟩ := lastWith_key hlast
    obtain ⟨e, he, hbare⟩ := List.mem_map.mp hmem
    rw [← hid, ← hbare, lastWith_bare] at hlast
    obtain ⟨f, hf, hfe⟩ := Option.map_eq_some_iff.mp hlast
    have hkey := (lastWith_key hf).1
    refine ⟨f, (lastWith_key hf).2, by rw [hkey, hf], Prod.ext ?_ ?_⟩
    · rw [← hid, ← hbare, hfe]
    · rw [← hbare, hfe]
  · rintro ⟨e, -, hlast, rfl⟩
    refine (mem_ofList Package.packageId _).mpr ?_
    rw [lastWith_bare, hlast]
    rfl

theorem nodup_keys_listed : (keys (listed server l.print.allVersions)).Nodup := by
  rw [listed_print]
  exact nodup_keys_ofList _

theorem mem_keys_listed (h : ∃ f ∈ l.entries, f.key = e.key) :
    (bare server e).packageId ∈ keys (listed server l.print.allVersions) := by
  obtain ⟨f, hf, hkey⟩ := h
  cases hlast : lastWith Entry.key l.entries e.key with
  | none => exact absurd hkey (lastWith_eq_none.mp hlast f hf)
  | some g =>
    obtain ⟨hgkey, hg⟩ := lastWith_key hlast
    have hmem : ((bare server g).packageId, bare server g) ∈ listed server l.print.allVersions :=
      mem_listed.mpr ⟨g, hg, by rw [hgkey, hlast], rfl⟩
    rw [← packageId_eq_iff.mpr hgkey]
    exact List.mem_map.mpr ⟨_, hmem, rfl⟩

end Records

section Marks

variable {field : String} {set : Package → Package} {server : String} {obj : List (String × Package)} {es : List Entry}

def marked (set : Package → Package) (ids : List String) (obj : List (String × Package)) : List (String × Package) :=
  obj.map fun q => (q.1, if q.1 ∈ ids then set q.2 else q.2)

theorem keys_marked (ids : List String) : keys (marked set ids obj) = keys obj := by
  rw [marked, keys, keys, List.map_map]
  rfl

-- a line that names a package of the table sets its flag, once more or for the first time
theorem put_marked {ids : List String} {id : String} {p : Package} (hidem : ∀ p, set (set p) = set p)
    (hnodup : (keys obj).Nodup) (h : find id (marked set ids obj) = some p) :
    put id (set p) (marked set ids obj) = marked set (ids ++ [id]) obj := by
  have hkeys : (keys (marked set ids obj)).Nodup := by rwa [keys_marked]
  have hmem := (find_eq_some hkeys).mp h
  rw [put_eq_map hkeys (List.mem_map.mpr ⟨_, hmem, rfl⟩), marked, List.map_map, marked]
  refine List.map_congr_left fun q hq => ?_
  by_cases heq : q.1 = id
  · subst heq
    have hq' := (find_eq_some hkeys).mpr (List.mem_map.mpr ⟨q, hq, rfl⟩)
    obtain rfl := Option.some.inj (h.symm.trans hq')
    simp only [Function.comp, if_pos, List.mem_append, List.mem_singleton, or_true]
    split
    · rw [hidem]
    · rfl
  · simp [heq]

theorem mark_marked {ids : List String} {e : Entry} (hidem : ∀ p, set (set p) = set p) (hnodup : (keys obj).Nodup)
    (h : (bare server e).packageId ∈ keys obj) :
    mark field set server (marked set ids obj) e.mainLine =
      .ok (marked set (ids ++ [(bare server e).packageId]) obj) := by
  have hid : (packageOf server e.mainLine none).packageId = (bare server e).packageId := by
    rw [packageOf_mainLine]
    rfl
  rw [mark, hid]
  cases hfind : find (bare server e).packageId (marked set ids obj) with
  | none =>
    rw [find_eq_none, keys_marked] at hfind
    exact absurd h hfind
  | some p => exact congrArg Except.ok (put_marked hidem hnodup hfind)

theorem foldlM_mark (hidem : ∀ p, set (set p) = set p) (hnodup : (keys obj).Nodup)
    (h : ∀ e ∈ es, (bare server e).packageId ∈ keys obj) :
    (es.map Entry.mainLine).foldlM (mark field set server) obj =
      .ok (marked set (es.map fun e => (bare server e).packageId) obj) := by
  induction es using List.reverseRecOn with
  | nil =>
    refine congrArg Except.ok (Eq.symm ?_)
    simp [marked]
  | append_singleton es e ih =>
    obtain ⟨hes, he⟩ := List.forall_mem_append.mp h
    rw [List.map_append, List.foldlM_append, ih hes, List.map_append]
    exact (bind_pure _).trans (mark_marked hidem hnodup (he e List.mem_cons_self))

end Marks

section Reading

variable {server : String} {l : Listing} {p : Package}

-- the table after the second list and after the third one
def installedObj (server : String) (l : Listing) : List (String × Package) :=
  marked setInstalled (l.installed.map fun e => (bare server e).packageId) (listed server l.print.allVersions)

def upgradableObj (server : String) (l : Listing) : List (String × Package) :=
  marked setUpgradable (l.upgradable.map fun e => (bare server e).packageId) (installedObj server l)

theorem readServer_print : readServer server l.print = .ok ((upgradableObj server l).map Prod.snd) := by
  have hinstalled : linesOf l.print.installed = l.installed.map Entry.mainLine := linesOf_mains l.header_plain
  have hupgradable : linesOf l.print.upgradable = l.upgradable.map Entry.mainLine := linesOf_mains l.header_plain
  have hfirst : (l.installed.map Entry.mainLine).foldlM (mark "installed" setInstalled server)
      (listed server l.print.allVersions) = .ok (installedObj server l) :=
    foldlM_mark (fun _ => rfl) nodup_keys_listed fun e he => mem_keys_listed (l.installed_listed e he)
  have hsecond : (l.upgradable.map Entry.mainLine).foldlM (mark "upgradable" setUpgradable server)
      (installedObj server l) = .ok (upgradableObj server l) := by
    refine foldlM_mark (fun _ => rfl) ?_ fun e he => ?_
    · rw [installedObj, keys_marked]
      exact nodup_keys_listed
    · rw [installedObj, keys_marked]
      exact mem_keys_listed (l.upgradable_listed e he)
  rw [readServer, hinstalled, hupgradable, hfirst]
  exact congrArg (· >>= fun packagesObj => pure (packagesObj.map Prod.snd)) hsecond

theorem mem_ids_iff {es : List Entry} {e : Entry} :
    (bare server e).packageId ∈ es.map (fun f => (bare server f).packageId) ↔ (es.map Entry.key).contains e.key = true := by
  rw [List.contains_iff_mem, List.mem_map, List.mem_map]
  exact exists_congr fun f => and_congr_right fun _ => packageId_eq_iff

theorem flagged_eq (e : Entry) :
    (if (bare server e).packageId ∈ l.upgradable.map (fun f => (bare server f).packageId) then
      setUpgradable (if (bare server e).packageId ∈ l.installed.map (fun f => (bare server f).packageId) then
        setInstalled (bare server e) else bare server e)
    else if (bare server e).packageId ∈ l.installed.map (fun f => (bare server f).packageId) then
      setInstalled (bare server e) else bare server e) = record trim server l e := by
  rw [record]
  simp only [mem_ids_iff]
  cases (l.installed.map Entry.key).contains e.key <;> cases (l.upgradable.map Entry.key).contains e.key <;> rfl

-- the records: one for each entry that is the last one printed for its key
theorem mem_upgradableObj : p ∈ (upgradableObj server l).map Prod.snd ↔
    ∃ e ∈ l.entries, lastWith Entry.key l.entries e.key = some e ∧ p = record trim server l e := by
  rw [upgradableObj, installedObj, marked, marked, List.map_map, List.map_map]
  constructor
  · intro hp
    obtain ⟨q, hq, rfl⟩ := List.mem_map.mp hp
    obtain ⟨e, he, hlast, rfl⟩ := mem_listed.mp hq
    exact ⟨e, he, hlast, flagged_eq e⟩
  · rintro ⟨e, he, hlast, rfl⟩
    exact List.mem_map.mpr ⟨_, mem_listed.mpr ⟨e, he, hlast, rfl⟩, flagged_eq e⟩

theorem nodup_upgradableObj : (((upgradableObj server l).map Prod.snd).map Package.key).Nodup := by
  have hkeys : (keys (upgradableObj server l)).Nodup := by
    rw [upgradableObj, keys_marked, installedObj, keys_marked]
    exact nodup_keys_listed
  have hpackageId : ∀ q ∈ upgradableObj server l, q.2.packageId = q.1 := by
    intro q hq
    rw [upgradableObj, installedObj, marked, marked, List.map_map] at hq
    obtain ⟨r, hr, rfl⟩ := List.mem_map.mp hq
    obtain ⟨e, -, -, rfl⟩ := mem_listed.mp hr
    dsimp only [Function.comp]
    rw [flagged_eq]
    rfl
  rw [List.map_map]
  refine List.Nodup.of_map (fun k => generateId [k.1, k.2.1, k.2.2.1.getD "", k.2.2.2.getD ""]) ?_
  rw [List.map_map]
  convert hkeys using 1
  exact List.map_congr_left hpackageId

theorem mapM_of_ok {ε α β : Type} {f : α → Except ε β} {g : α → β} {xs : List α} (h : ∀ x ∈ xs, f x = .ok (g x)) :
    xs.mapM f = .ok (xs.map g) := by
  induction xs with
  | nil => rfl
  | cons x xs ih =>
    obtain ⟨hx, hxs⟩ := List.forall_mem_cons.mp h
    rw [List.mapM_cons, hx, ih hxs]
    rfl

theorem read_print (fleet : Fleet) :
    read fleet.print = .ok (fleet.servers.flatMap fun s => (upgradableObj s.1 s.2).map Prod.snd) := by
  have hservers : (fleet.servers.map fun s => (s.1, s.2.print)).mapM (fun s => readServer s.1 s.2) =
      .ok (fleet.servers.map fun s => (upgradableObj s.1 s.2).map Prod.snd) := by
    rw [List.mapM_map]
    exact mapM_of_ok fun s _ => readServer_print
  rw [read, Fleet.print, hservers, List.flatMap_def]
  rfl

theorem read_exact (fleet : Fleet) : ∃ out, read fleet.print = .ok out ∧ Exact trim fleet out := by
  refine ⟨_, read_print fleet, ?_, fun p => ?_⟩
  · rw [List.map_flatMap, List.nodup_flatMap]
    refine ⟨fun s _ => nodup_upgradableObj, ?_⟩
    -- the records of two servers differ in the name of the server
    have hservers := List.pairwise_map.mp fleet.unique
    refine hservers.imp fun hne k hk hk' => hne ?_
    obtain ⟨p, hp, rfl⟩ := List.mem_map.mp hk
    obtain ⟨p', hp', hkey⟩ := List.mem_map.mp hk'
    obtain ⟨e, -, -, rfl⟩ := mem_upgradableObj.mp hp
    obtain ⟨e', -, -, rfl⟩ := mem_upgradableObj.mp hp'
    exact (congrArg Prod.fst hkey).symm
  · rw [List.mem_flatMap]
    exact exists_congr fun s => and_congr_right fun _ => mem_upgradableObj

end Reading

end Iasql.Apt
