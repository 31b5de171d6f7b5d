import Iasql.Calculus.OrderedMap
import Iasql.Json

namespace Iasql

open OrderedMap

inductive Comparison where
  | is | equals | jsonbEquals
deriving DecidableEq

inductive Literal where
  | quoted (v : JsVal)
  | stringified (v : JsVal)
  | array (v : JsVal) (type : Option String)
  | jsonb (l : Literal)
  -- the text with every ::json, ::jsonb and ::simple-json replaced by ::jsonb
  | jsonbOnly (l : Literal)
  | subQuery (column table : String) (conds : List (String × Comparison × Literal))
  | relationNotFound
  | blank

abbrev Conds := List (String × Comparison × Literal)

inductive Statement where
  | insert (table : String) (values : List (String × Literal))
  | delete (table : String) (conds : Conds)
  | update (table : String) (sets : List (String × Literal)) (conds : Conds)

abbrev Row := String → JsVal

abbrev Db := String → List Row

structure ColumnDef where
  name : String
  default : JsVal := .null
  generated : Bool := false
deriving DecidableEq

-- the server: its tables, how it reads a literal, its sequences and its constraints
structure Postgres where
  columns : String → List ColumnDef
  input : String → String → Literal → Option JsVal
  fresh : Db → String → String → JsVal
  rejects : Db → Db → Bool
  input_null : ∀ t c, input t c (.quoted .null) = some .null

namespace Postgres

variable (pg : Postgres)

def column (t c : String) : Option ColumnDef := (pg.columns t).find? (·.name == c)

def isGenerated (t c : String) : Bool := (pg.column t c).elim false ColumnDef.generated

def defaultOf (db : Db) (t c : String) : JsVal :=
  match pg.column t c with
  | some d => if d.generated then pg.fresh db t c else d.default
  | none => .null

-- a comparison with NULL is never true
def matchesAll (cs : List (String × Comparison × JsVal)) (r : Row) : Bool :=
  cs.all fun (c, op, v) =>
    match op with
    | .is => r c == .null
    | _ => r c != .null && r c == v

def scalar (c : String) : List Row → Option JsVal
  | [] => some .null
  | [r] => some (r c)
  | _ => none

mutual
def evalLiteral (db : Db) (t c : String) : Literal → Option JsVal
  | .subQuery column table conds =>
    match evalConds db table conds with
    | some (x :: cs) => scalar column ((db table).filter (matchesAll (x :: cs)))
    | _ => none
  | .quoted v => pg.input t c (.quoted v)
  | .stringified v => pg.input t c (.stringified v)
  | .array v type => pg.input t c (.array v type)
  | .jsonb l => pg.input t c (.jsonb l)
  | .jsonbOnly l => pg.input t c (.jsonbOnly l)
  | .relationNotFound => pg.input t c .relationNotFound
  | .blank => pg.input t c .blank

def evalConds (db : Db) (t : String) :
    List (String × Comparison × Literal) → Option (List (String × Comparison × JsVal))
  | [] => some []
  | (c, op, l) :: cs =>
    match evalLiteral db t c l, evalConds db t cs with
    | some v, some vs => some ((c, op, v) :: vs)
    | _, _ => none
end

def evalValues (db : Db) (t : String) : List (String × Literal) → Option (List (String × JsVal))
  | [] => some []
  | (c, l) :: ls =>
    match pg.evalLiteral db t c l, evalValues db t ls with
    | some v, some vs => some ((c, v) :: vs)
    | _, _ => none

def newRow (db : Db) (t : String) (values : List (String × JsVal)) : Row := fun c =>
  (find c values).getD (pg.defaultOf db t c)

def setRow (values : List (String × JsVal)) (r : Row) : Row := fun c => (find c values).getD (r c)

-- an empty list of columns or of conditions is a syntax error
def effect (db : Db) : Statement → Option Db
  | .insert t values =>
    match pg.evalValues db t values with
    | some (v :: vs) => some (Function.update db t (db t ++ [pg.newRow db t (v :: vs)]))
    | _ => none
  | .delete t conds =>
    match pg.evalConds db t conds with
    | some (c :: cs) =>
      some (Function.update db t ((db t).filter fun r => !matchesAll (c :: cs) r))
    | _ => none
  | .update t sets conds =>
    match pg.evalValues db t sets, pg.evalConds db t conds with
    | some (v :: vs), some (c :: cs) =>
      some (Function.update db t
        ((db t).map fun r => if matchesAll (c :: cs) r then setRow (v :: vs) r else r))
    | _, _ => none

theorem defaultOf_eq {pg : Postgres} (d db : Db) {t c : String} (h : pg.isGenerated t c = false) :
    pg.defaultOf d t c = pg.defaultOf db t c := by
  unfold defaultOf
  cases hc : pg.column t c with
  | none => rfl
  | some col =>
    have hgen : col.generated = false := by simpa [isGenerated, hc] using h
    simp [hgen]

theorem defaultOf_generated {pg : Postgres} (db : Db) {t c : String} (h : pg.isGenerated t c = true) :
    pg.defaultOf db t c = pg.fresh db t c := by
  unfold defaultOf
  cases hc : pg.column t c with
  | none => simp [isGenerated, hc] at h
  | some col =>
    have hgen : col.generated = true := by simpa [isGenerated, hc] using h
    simp [hgen]

def execute (db : Db) (q : Statement) : Option Db :=
  (pg.effect db q).bind fun db' => if pg.rejects db db' then none else some db'

end Postgres

end Iasql
