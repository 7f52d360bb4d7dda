import SbtExample.Foundations.Tally

/-! # Remote method calls (`RpcBeanProxy`, `RpcClientActor`, `RpcServerActor`)

What one `CallMethod` goes through. An object is its runtime class and its contents `V`, `null` is
`none`, and a class is known by its name (one class loader). A class lists its public methods, the
inherited ones included, as `Class.getMethod` searches them.
-/
set_option autoImplicit false
set_option maxHeartbeats 250000

namespace SbtExample.Rpc
open Tally

/-! ## Classes and objects -/

inductive Primitive
  | boolean | byte | short | char | int | long | float | double
  deriving DecidableEq

/-- The class of the objects that a value of the primitive type is boxed into. -/
def Primitive.box : Primitive → String
  | .boolean => "java.lang.Boolean"
  | .byte => "java.lang.Byte"
  | .short => "java.lang.Short"
  | .char => "java.lang.Character"
  | .int => "java.lang.Integer"
  | .long => "java.lang.Long"
  | .float => "java.lang.Float"
  | .double => "java.lang.Double"

inductive JavaType
  | primitive (p : Primitive)
  | reference (name : String)
  deriving DecidableEq

structure Method where
  name : String
  parameterTypes : List JavaType
  deriving DecidableEq

structure JavaClass where
  name : String
  methods : List Method
  deriving DecidableEq

structure Obj (V : Type) where
  getClass : JavaClass
  contents : V
  deriving DecidableEq

abbrev Ref (V : Type) : Type := Option (Obj V)

def Obj.runtimeType {V : Type} (o : Obj V) : JavaType := .reference o.getClass.name

/-- `Class.getMethod`: the public method with exactly these parameter types. -/
def JavaClass.getMethod (c : JavaClass) (name : String) (paraTypes : List JavaType) :
    Option Method :=
  c.methods.find? fun m => decide (m.name = name ∧ m.parameterTypes = paraTypes)

inductive Throwable
  | nullPointer
  | noSuchMethod
  | invocationTarget
  | invalidMessage
  | timeout
  deriving DecidableEq

/-! ## `RpcEvent.CallMethod` -/

structure CallMethod (V : Type) where
  methodName : String
  params : Option (List (Ref V))
  beanName : String
  deriving DecidableEq

section Actors
variable {V : Type}

/-- The message of `RpcBeanProxy.invoke`: the arguments are the `args` of the invocation handler,
which are `null` for a method without parameters. -/
def RpcBeanProxy.callMethod (clz : JavaClass) (method : Method) (args : List (Ref V)) :
    CallMethod V :=
  ⟨method.name, if args = [] then none else some args, clz.name⟩

/-! ## `RpcServerActor` -/

abbrev Services (V : Type) : Type := Table JavaClass (Ref V)

structure RpcServerActor (V : Type) where
  proxyBeans : Table String (Ref V)

/-- The constructor: one entry for each interface, under its name. -/
def RpcServerActor.new (beans : Services V) : RpcServerActor V :=
  ⟨(toList beans).foldl (fun proxyBeans e => put proxyBeans e.1.name e.2) ∅⟩

/-- `proxyBeans.get(name)`: `null` is also the answer for an absent name. -/
def RpcServerActor.bean (a : RpcServerActor V) (name : String) : Ref V :=
  (a.proxyBeans.lookup name).join

/-- The loop over `params`: `param.getClass()` throws on `null`. -/
def paraTypes : List (Ref V) → Except Throwable (List JavaType)
  | [] => .ok []
  | none :: _ => .error .nullPointer
  | some param :: params => (paraTypes params).map fun types => param.runtimeType :: types

/-- `onReceive` up to and including `getMethod`. -/
def RpcServerActor.findMethod (a : RpcServerActor V) (event : CallMethod V) :
    Except Throwable Method := do
  let types ← paraTypes (event.params.getD [])
  match a.bean event.beanName with
  | none => .error .nullPointer
  | some bean =>
    match bean.getClass.getMethod event.methodName types with
    | none => .error .noSuchMethod
    | some method => .ok method

/-- What `method.invoke(bean, params)` does: the result, `null` for a `void` method, or an
exception. -/
inductive Outcome (V : Type)
  | returns (o : Ref V)
  | throws

def Outcome.invoke : Outcome V → Except Throwable (Ref V)
  | .returns o => .ok o
  | .throws => .error .invocationTarget

/-- `getSender().tell(o, getSelf())` does not accept `null`. -/
def tell (o : Ref V) : Except Throwable (Obj V) :=
  match o with
  | none => .error .invalidMessage
  | some o => .ok o

/-- What one `onReceive` did: the method it invoked, what the invocation gave, and the reply to the
sender or the exception that escaped. -/
structure Handled (V : Type) where
  invoked : Option Method
  result : Except Throwable (Ref V)
  reply : Except Throwable (Obj V)

def RpcServerActor.onReceive (a : RpcServerActor V) (event : CallMethod V) (outcome : Outcome V) :
    Handled V :=
  match a.findMethod event with
  | .error e => ⟨none, .error e, .error e⟩
  | .ok method => ⟨some method, outcome.invoke, outcome.invoke.bind tell⟩

/-! ## `RpcClientActor` and `RpcBeanProxy` -/

/-- `Await.result` on the future of an ask, given the replies that reach it within the five
seconds: the first one decides, a failure is thrown. -/
def await (replies : List (Except Throwable (Ref V))) : Except Throwable (Ref V) :=
  match replies with
  | [] => .error .timeout
  | reply :: _ => reply

/-- The replies that the asker of the client actor gets: an exception escapes `onReceive` and
nobody is told. -/
def RpcClientActor.onReceive (replies : List (Except Throwable (Ref V))) :
    List (Except Throwable (Ref V)) :=
  match await replies with
  | .error _ => []
  | .ok o =>
    match tell o with
    | .error _ => []
    | .ok o => [.ok (some o)]

/-- What `RpcBeanProxy.invoke` gives to its caller, given the replies of the client actor. -/
def RpcBeanProxy.invoke (replies : List (Except Throwable (Ref V))) : Except Throwable (Ref V) :=
  await replies

/-! ## What the server finds -/

theorem bind_eq_ok {α β : Type} {x : Except Throwable α} {f : α → Except Throwable β} {b : β} :
    x.bind f = .ok b ↔ ∃ a, x = .ok a ∧ f a = .ok b := by
  cases x with
  | error e => simp [Except.bind]
  | ok a => simp [Except.bind]

theorem paraTypes_eq_ok (params : List (Ref V)) (types : List JavaType) :
    paraTypes params = .ok types ↔
      ∃ args : List (Obj V), params = args.map some ∧ types = args.map Obj.runtimeType := by
  induction params generalizing types with
  | nil =>
    constructor
    · intro h
      cases h
      exact ⟨[], rfl, rfl⟩
    · rintro ⟨args, hargs, rfl⟩
      rw [List.map_eq_nil_iff.mp hargs.symm]
      rfl
  | cons param params ih =>
    cases param with
    | none =>
      constructor
      · intro h
        cases h
      · rintro ⟨args, hargs, -⟩
        obtain ⟨a, args, rfl, ha, -⟩ := List.map_eq_cons_iff.mp hargs.symm
        cases ha
    | some o =>
      rw [paraTypes]
      constructor
      · intro h
        cases hp : paraTypes params with
        | error e => rw [hp] at h; cases h
        | ok ts =>
          rw [hp] at h
          cases h
          obtain ⟨args, rfl, rfl⟩ := (ih ts).mp hp
          exact ⟨o :: args, rfl, rfl⟩
      · rintro ⟨args, hargs, rfl⟩
        obtain ⟨a, args, rfl, ha, rfl⟩ := List.map_eq_cons_iff.mp hargs.symm
        cases ha
        rw [(ih _).mpr ⟨args, rfl, rfl⟩]
        rfl

theorem getMethod_eq_some (c : JavaClass) (name : String) (types : List JavaType) (m : Method) :
    c.getMethod name types = some m ↔ m ∈ c.methods ∧ m.name = name ∧ m.parameterTypes = types := by
  unfold JavaClass.getMethod
  constructor
  · intro h
    have hm := List.find?_some h
    exact ⟨List.mem_of_find?_eq_some h, by simpa using hm⟩
  · rintro ⟨hm, rfl, rfl⟩
    cases hf : c.methods.find? fun m' =>
        decide (m'.name = m.name ∧ m'.parameterTypes = m.parameterTypes) with
    | none => simpa using List.find?_eq_none.mp hf m hm
    | some m' =>
      have heq := List.find?_some hf
      simp only [decide_eq_true_eq] at heq
      obtain ⟨name, types⟩ := m
      obtain ⟨name', types'⟩ := m'
      obtain ⟨rfl, rfl⟩ := heq
      rfl

/-- The method found is a public method of the registered bean's class, under the name in the
event, and its parameter types are the runtime classes of the arguments. -/
theorem findMethod_eq_ok (a : RpcServerActor V) (event : CallMethod V) (m : Method) :
    a.findMethod event = .ok m ↔
      ∃ bean, ∃ args : List (Obj V), a.bean event.beanName = some bean ∧
        event.params.getD [] = args.map some ∧
        m ∈ bean.getClass.methods ∧ m.name = event.methodName ∧
        m.parameterTypes = args.map Obj.runtimeType := by
  have hbind : a.findMethod event = .ok m ↔ ∃ types, paraTypes (event.params.getD []) = .ok types ∧
      ∃ bean, a.bean event.beanName = some bean ∧
        bean.getClass.getMethod event.methodName types = some m := by
    refine bind_eq_ok.trans (exists_congr fun types => and_congr_right fun _ => ?_)
    cases a.bean event.beanName with
    | none => simp
    | some bean =>
      cases hm : bean.getClass.getMethod event.methodName types with
      | none => simp [hm]
      | some m' => simp [hm]
  rw [hbind]
  constructor
  · rintro ⟨types, hp, bean, hb, hm⟩
    obtain ⟨args, hargs, rfl⟩ := (paraTypes_eq_ok _ _).mp hp
    exact ⟨bean, args, hb, hargs, (getMethod_eq_some ..).mp hm⟩
  · rintro ⟨bean, args, hb, hargs, hm⟩
    exact ⟨_, (paraTypes_eq_ok _ _).mpr ⟨args, hargs, rfl⟩, bean, hb, (getMethod_eq_some ..).mpr hm⟩

theorem onReceive_invoked (a : RpcServerActor V) (event : CallMethod V) (outcome : Outcome V)
    (m : Method) :
    (a.onReceive event outcome).invoked = some m ↔ a.findMethod event = .ok m := by
  unfold RpcServerActor.onReceive
  cases a.findMethod event with
  | error e => simp
  | ok m' => simp

theorem onReceive_reply (a : RpcServerActor V) (event : CallMethod V) (outcome : Outcome V)
    (o : Obj V) :
    (a.onReceive event outcome).reply = .ok o ↔
      (∃ m, a.findMethod event = .ok m) ∧ outcome = .returns (some o) := by
  unfold RpcServerActor.onReceive
  cases a.findMethod event with
  | error e => simp
  | ok m =>
    cases outcome with
    | throws => simp [Outcome.invoke, Except.bind]
    | returns r =>
      cases r with
      | none => simp [Outcome.invoke, Except.bind, tell]
      | some r => simp [Outcome.invoke, Except.bind, tell]

end Actors

end SbtExample.Rpc
