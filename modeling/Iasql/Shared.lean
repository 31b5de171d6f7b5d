import Iasql.Calculus.Dict
import Iasql.Calculus.Runs
import Iasql.Engine

namespace Iasql.Shared

-- entities are objects that the memo, the callers and the underlying functions hold by reference
abbrev Ref := Nat

abbrev Entity (V : Type) := Dict String V

structure Heap (V : Type) where
  objects : Ref → Entity V
  next : Ref

namespace Heap

variable {V : Type}

def alloc (h : Heap V) (e : Entity V) : Heap V :=
  ⟨Function.update h.objects h.next e, h.next + 1⟩

-- Object.keys(e).forEach(k => (realE[k] = e[k]))
def assign (h : Heap V) (realE e : Ref) : Heap V :=
  ⟨Function.update h.objects realE ((h.objects realE).assign (h.objects e)), h.next⟩

end Heap

-- memo is ctx.memo[dest][entityName]
structure Memory (V : Type) where
  heap : Heap V
  memo : Dict String Ref := ∅

inductive Entities where
  | one (e : Ref)
  | many (es : List Ref)
deriving DecidableEq

namespace Entities

def es : Entities → List Ref
  | one e => [e]
  | many es => es

-- the elements of e once the array in its hands is es: a single entity was wrapped in an array apart
def inArray : Entities → List Ref → List Ref
  | one e, _ => [e]
  | many _, es => es

end Entities

-- the heap an underlying function leaves, and what it returns or throws
structure Reply {V : Type} (h : Heap V) where
  heap : Heap V
  grows : h.next ≤ heap.next
  out : Except Thrown (Option Entities)
  known : ∀ o, out = .ok (some o) → ∀ e ∈ o.es, e < heap.next

-- with the array it was given, as it leaves it
structure Creation {V : Type} (h : Heap V) extends Reply h where
  es : List Ref

abbrev CreateFn (V : Type) := List Ref → (h : Heap V) → Creation h

abbrev ReadFn (V : Type) := Option String → (h : Heap V) → Reply h

abbrev UpdateFn (V : Type) := List Ref → (h : Heap V) → Reply h

abbrev DeleteFn (V : Type) := List Ref → (h : Heap V) → Reply h

-- the input argument of memo
inductive Input where
  | undefined | single | list
deriving DecidableEq

def Entities.input : Entities → Input
  | one _ => .single
  | many _ => .list

structure Crud (V : Type) where
  entityName : String
  dest : Dest
  entityId : Entity V → String

abbrev Result (V : Type) := Except Thrown (Option Entities) × Memory V

namespace Crud

variable {V : Type} (c : Crud V)

def rethrown (verb : String) (err : Thrown) : Thrown :=
  let message := err.message.getD ""
  err.withMessage s!"{c.entityName} {c.dest.name} {verb} error: {message}"

-- what stands at the index of e in the array afterwards, and the memory
def memoOne (e : Ref) (s : Memory V) : Ref × Memory V :=
  match s.memo.get? (c.entityId (s.heap.objects e)) with
  | none => (e, { s with memo := s.memo.set (c.entityId (s.heap.objects e)) e })
  | some realE => (realE, { s with heap := s.heap.assign realE e })

def memoEach : List Ref → Memory V → List Ref × Memory V
  | [], s => ([], s)
  | e :: es, s =>
    let one := c.memoOne e s
    let rest := memoEach es one.2
    (one.1 :: rest.1, rest.2)

def memo (entity : Option Entities) (input : Input) (s : Memory V) : Option Entities × Memory V :=
  match entity with
  | none => (none, s)
  | some entity =>
    let done := c.memoEach entity.es s
    if entity.input = .list ∧ input ≠ .single then (some (.many done.1), done.2)
    else (done.1.head?.map .one, done.2)

def unmemo (es : List (Entity V)) (s : Memory V) : Memory V :=
  { s with memo := s.memo.eraseAll (es.map c.entityId) }

def create (createFn : CreateFn V) (e : Entities) (s : Memory V) : Result V :=
  let reserved := c.memoEach e.es s
  let reply := createFn (e.inArray reserved.1) reserved.2.heap
  let called : Memory V := ⟨reply.heap, reserved.2.memo⟩
  match reply.out with
  | .ok out =>
    let done := c.memo out e.input called
    (.ok done.1, done.2)
  | .error err =>
    (.error (c.rethrown "create" err),
      c.unmemo ((e.inArray reply.es).map reply.heap.objects) called)

-- a placeholder new (this.entity)() under id
def place (id : String) (s : Memory V) : Memory V :=
  ⟨s.heap.alloc ∅, s.memo.set id s.heap.next⟩

def forget (id : String) (s : Memory V) : Memory V := { s with memo := s.memo.eraseAll [id] }

def fetch (readFn : ReadFn V) (id : String) (s : Memory V) : Result V :=
  let reply := readFn (some id) s.heap
  let called : Memory V := ⟨reply.heap, s.memo⟩
  match reply.out with
  | .error err => (.error (c.rethrown "read" err), forget id called)
  | .ok none | .ok (some (.many [])) => (.ok none, forget id called)
  | .ok (some (.many [o])) | .ok (some (.one o)) =>
    let done := c.memo (some (.one o)) .single called
    (.ok done.1, done.2)
  | .ok (some (.many os)) =>
    let done := c.memo (some (.many os)) .single called
    (.ok done.1, done.2)

def readById (readFn : ReadFn V) (id : String) (s : Memory V) : Result V :=
  match s.memo.get? id with
  | none => c.fetch readFn id (place id s)
  | some e =>
    -- an object without keys is a placeholder
    if (s.heap.objects e).keys = [] then c.fetch readFn id s else (.ok (some (.one e)), s)

def readAll (readFn : ReadFn V) (s : Memory V) : Result V :=
  let reply := readFn none s.heap
  let called : Memory V := ⟨reply.heap, s.memo⟩
  match reply.out with
  | .error err => (.error (c.rethrown "read" err), called)
  | .ok none => (.ok none, called)
  | .ok (some out) =>
    let done := c.memo (some out) out.input called
    if out.es = [] then (.ok (some out), called) else (.ok done.1, done.2)

def read (readFn : ReadFn V) (id : Option String) (s : Memory V) : Result V :=
  match id.filter (· != "") with
  | some id => c.readById readFn id s
  | none => c.readAll readFn s

def update (updateFn : UpdateFn V) (e : Entities) (s : Memory V) : Result V :=
  let reply := updateFn e.es s.heap
  let called : Memory V := ⟨reply.heap, s.memo⟩
  match reply.out with
  | .ok out =>
    let done := c.memo out e.input called
    (.ok done.1, done.2)
  | .error err => (.error (c.rethrown "update" err), called)

def delete (deleteFn : DeleteFn V) (e : Entities) (s : Memory V) : Result V :=
  let esClone := e.es.map s.heap.objects
  let reply := deleteFn e.es s.heap
  let called : Memory V := ⟨reply.heap, s.memo⟩
  match reply.out with
  | .error err => (.error (c.rethrown "delete" err), called)
  | .ok out =>
    let returned := match e, out with
      | .one _, some (.many out) => out.head?.map .one
      | _, out => out
    (.ok returned, c.unmemo esClone called)

end Crud

inductive Call (V : Type) where
  -- the caller makes an object
  | build (e : Entity V)
  -- context.memo.cloud = {}
  | flush
  | create (createFn : CreateFn V) (e : Entities)
  | read (readFn : ReadFn V) (id : Option String)
  | update (updateFn : UpdateFn V) (e : Entities)
  | delete (deleteFn : DeleteFn V) (e : Entities)

namespace Crud

variable {V : Type} (c : Crud V)

def call (s : Memory V) : Call V → Memory V
  | .build e => { s with heap := s.heap.alloc e }
  | .flush => { s with memo := ∅ }
  | .create createFn e => (c.create createFn e s).2
  | .read readFn id => (c.read readFn id s).2
  | .update updateFn e => (c.update updateFn e s).2
  | .delete deleteFn e => (c.delete deleteFn e s).2

end Crud

end Iasql.Shared
