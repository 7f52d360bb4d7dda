import Mathlib

/-! # Declarative transactions (`spring-context.xml`, `PersonService.scala`, `PersonDao.scala`)

The advice of the configuration applies to the methods of the beans that its pointcut matches. A
method that is not advised runs without a transaction, so that its statements commit by themselves.
References and strings may be `null`, which is `none`.
-/
set_option autoImplicit false
set_option maxHeartbeats 250000

namespace SbtExample.Spring

/-! ## Pointcuts -/

/-- A part of a type pattern: `..` stands for any number of package segments. -/
inductive Segment
  | name (s : String)
  | star
  | dots

def typeMatches : List Segment → List String → Bool
  | [], ns => ns.isEmpty
  | .name s :: ps, n :: ns => s = n && typeMatches ps ns
  | .star :: ps, _ :: ns => typeMatches ps ns
  | .dots :: ps, ns => ns.tails.any (typeMatches ps)
  | _ :: _, [] => false

/-- A pattern with `*` for any characters. -/
def simpleMatch : List Char → List Char → Bool
  | [], s => s.isEmpty
  | c :: pattern, s =>
    if c = '*' then s.tails.any (simpleMatch pattern)
    else
      match s with
      | [] => false
      | d :: s => c = d && simpleMatch pattern s

structure Pointcut where
  declaringType : List Segment
  method : String

def Pointcut.applies (p : Pointcut) (bean : List String) (method : String) : Bool :=
  typeMatches p.declaringType bean && simpleMatch p.method.toList method.toList

/-! ## Transaction attributes -/

inductive Propagation
  | required
  | notSupported
  deriving DecidableEq

structure TransactionAttribute where
  propagation : Propagation
  rollbackFor : List String
  deriving DecidableEq

/-- The attribute of the method's own name, else that of the longest pattern that matches it. -/
def getTransactionAttribute (attributes : List (String × TransactionAttribute)) (method : String) :
    Option TransactionAttribute :=
  match attributes.lookup method with
  | some txAttribute => some txAttribute
  | none =>
    let best := attributes.foldl (fun best entry =>
      if simpleMatch entry.1.toList method.toList ∧
          ∀ b ∈ best, b.1.length ≤ entry.1.length then some entry else best)
      (none : Option (String × TransactionAttribute))
    best.map Prod.snd

inductive Throwable
  | exception
  | nullPointerException
  | dataAccessException
  deriving DecidableEq

/-- The names of the class and its superclasses. -/
def Throwable.classNames : Throwable → List String
  | .exception => ["java.lang.Exception", "java.lang.Throwable"]
  | .nullPointerException =>
    ["java.lang.NullPointerException", "java.lang.RuntimeException", "java.lang.Exception",
      "java.lang.Throwable"]
  | .dataAccessException =>
    ["org.springframework.dao.DataAccessException",
      "org.springframework.core.NestedRuntimeException", "java.lang.RuntimeException",
      "java.lang.Exception", "java.lang.Throwable"]

/-- A rule of `rollback-for` is part of a class name. Without a rule that matches, unchecked
exceptions are rolled back. -/
def TransactionAttribute.rollbackOn (a : TransactionAttribute) (e : Throwable) : Bool :=
  (a.rollbackFor.any fun rule => e.classNames.any fun name => rule.toList <:+: name.toList) ||
    e.classNames.contains "java.lang.RuntimeException"

/-! ## The configuration -/

def txAdviceDuty : List (String × TransactionAttribute) :=
  [("get*", ⟨.required, []⟩), ("find*", ⟨.required, []⟩), ("login", ⟨.required, []⟩),
    ("exist*", ⟨.required, []⟩), ("query*", ⟨.notSupported, []⟩), ("*", ⟨.required, ["Exception"]⟩)]

/-- `execution(* com.topteam.services..impl..*.*(..))`. -/
def txPointcutDuty : Pointcut :=
  ⟨[.name "com", .name "topteam", .name "services", .dots, .name "impl", .dots, .star], "*"⟩

def advice (bean : List String) (method : String) : Option TransactionAttribute :=
  if txPointcutDuty.applies bean method then getTransactionAttribute txAdviceDuty method else none

/-! ## The data access object -/

structure Person where
  firstName : Option String
  lastName : Option String
  deriving DecidableEq

/-- The table `Person`, and the rows that the current call has inserted. -/
structure Database where
  table : List Person
  inserted : List Person

/-- What a statement has written stays written when a later one throws. -/
abbrev Jdbc : Type → Type := ExceptT Throwable (StateM Database)

/-- `executes` is the answer of the database to the statement. -/
def PersonDao.findAllPerson (executes : Bool) : Jdbc (List Person) := do
  if executes then
    return (← get).table
  else throw .dataAccessException

def PersonDao.savePerson (executes : Bool) (person : Option Person) : Jdbc Int32 := do
  match person with
  | none => throw .nullPointerException
  | some person =>
    if executes then
      modify fun db => ⟨db.table ++ [person], db.inserted ++ [person]⟩
      return 1
    else throw .dataAccessException

/-! ## The service -/

def PersonService.className : List String := ["com", "topteam", "services", "PersonService"]

def PersonService.getAllPerson (executes : Bool) : Jdbc (List Person) :=
  PersonDao.findAllPerson executes

def PersonService.savePerson (executes : Bool) (person : Option Person) : Jdbc Int32 :=
  PersonDao.savePerson executes person

def PersonService.saveTransactionTest (executes : Bool) (pk : Option String) : Jdbc Empty := do
  let p1 : Person := ⟨pk, some "test111"⟩
  discard (PersonDao.savePerson executes (some p1))
  throw .exception

inductive Call
  | getAllPerson
  | savePerson (person : Option Person)
  | saveTransactionTest (pk : Option String)
  deriving DecidableEq

def Call.method : Call → String
  | .getAllPerson => "getAllPerson"
  | .savePerson _ => "savePerson"
  | .saveTransactionTest _ => "saveTransactionTest"

/-- The method that is called, without its result. -/
def Call.body (executes : Bool) : Call → Jdbc Unit
  | .getAllPerson => discard (PersonService.getAllPerson executes)
  | .savePerson person => discard (PersonService.savePerson executes person)
  | .saveTransactionTest pk => discard (PersonService.saveTransactionTest executes pk)

/-! ## Calls through the container -/

/-- One call: an advised method that throws an exception with a rollback is undone. -/
def invoke (bean : List String) (executes : Bool) (call : Call) (table : List Person) :
    Except Throwable Unit × Database :=
  let (result, db) := (call.body executes).run ⟨table, []⟩
  match advice bean call.method, result with
  | some txAttribute, .error e =>
    if txAttribute.propagation = .required ∧ txAttribute.rollbackOn e = true then
      (.error e, { db with table := table })
    else (.error e, db)
  | _, result => (result, db)

/-- What is observed of one call of a sequence. -/
structure Served where
  before : List Person
  result : Except Throwable Unit
  inserted : List Person
  after : List Person

/-- The calls in order, each with the answer of the database to its statement. -/
def serve (bean : List String) : List Person → List (Call × Bool) → List Served
  | _, [] => []
  | table, (call, executes) :: calls =>
    let (result, db) := invoke bean executes call table
    ⟨table, result, db.inserted, db.table⟩ :: serve bean db.table calls

end SbtExample.Spring
