import SbtExample.Rpc.Program

/-! # Which method a remote call runs

The client chooses its `Method` by declared types, the event carries a name and objects, and the
server looks a method up again by the runtime classes of the objects. The two choices agree exactly
when no overload of the bean's class takes those runtime classes, unless they are the declared types
themselves. Without an overload the lookup finds nothing for other runtime classes, and never for a
primitive type.
-/
set_option autoImplicit false
set_option maxHeartbeats 250000

namespace SbtExample.Rpc

section Dispatch
variable {V : Type}

/-! ## Type-correct arguments -/

/-- The classes of a program, by name: which are subtypes of which, and which have objects of their
own. -/
structure Hierarchy where
  subtype : String → String → Prop
  concrete : String → Prop

/-- An object of class `c` can be the argument for a parameter of type `t`; for a primitive type the
invocation handler gets the boxed value. -/
def Hierarchy.admits (H : Hierarchy) (t : JavaType) (c : String) : Prop :=
  H.concrete c ∧
    match t with
    | .primitive p => c = p.box
    | .reference name => H.subtype c name

def TypeCorrect (H : Hierarchy) (method : Method) (args : List (Obj V)) : Prop :=
  List.Forall₂ (fun t o => H.admits t o.getClass.name) method.parameterTypes args

/-- Every parameter of `overload` is a class that the parameter of `method` admits. -/
def Narrows (H : Hierarchy) (overload method : Method) : Prop :=
  List.Forall₂ (fun t s => ∃ c, s = .reference c ∧ H.admits t c) method.parameterTypes
    overload.parameterTypes

/-! ## Soundness of the second lookup -/

/-- When the server invokes a method for the call of `method` through the proxy of `clz`, it is the
one with the name and the declared parameter types of `method`. -/
def DispatchesSoundly (services : Services V) (clz : JavaClass) (method : Method)
    (args : List (Obj V)) : Prop :=
  ∀ outcome invoked, ((RpcServerActor.new services).onReceive
    (RpcBeanProxy.callMethod clz method (args.map some)) outcome).invoked = some invoked →
      invoked = method

/-- The runtime classes of the arguments are the declared types, or the bean has no method of that
name for them. -/
def ExactOrUnshadowed (services : Services V) (clz : JavaClass) (method : Method)
    (args : List (Obj V)) : Prop :=
  args.map Obj.runtimeType = method.parameterTypes ∨
    ∀ bean, (RpcServerActor.new services).bean clz.name = some bean →
      ⟨method.name, args.map Obj.runtimeType⟩ ∉ bean.getClass.methods

theorem callMethod_params (clz : JavaClass) (method : Method) (args : List (Ref V)) :
    (RpcBeanProxy.callMethod clz method args).params.getD [] = args := by
  unfold RpcBeanProxy.callMethod
  by_cases h : args = []
  · simp [h]
  · simp [h]

theorem invoked_iff (services : Services V) (clz : JavaClass) (method invoked : Method)
    (args : List (Obj V)) (outcome : Outcome V) :
    ((RpcServerActor.new services).onReceive
      (RpcBeanProxy.callMethod clz method (args.map some)) outcome).invoked = some invoked ↔
    invoked = ⟨method.name, args.map Obj.runtimeType⟩ ∧
      ∃ bean, (RpcServerActor.new services).bean clz.name = some bean ∧
        invoked ∈ bean.getClass.methods := by
  rw [onReceive_invoked, findMethod_eq_ok, callMethod_params]
  constructor
  · rintro ⟨bean, args', hb, hargs, hm, hname, htypes⟩
    have hinj : args = args' := List.map_injective_iff.mpr (Option.some_injective _) hargs
    subst hinj
    obtain ⟨name, types⟩ := invoked
    exact ⟨by rw [Method.mk.injEq]; exact ⟨hname, htypes⟩, bean, hb, hm⟩
  · rintro ⟨rfl, bean, hb, hm⟩
    exact ⟨bean, args, hb, rfl, hm, rfl, rfl⟩

theorem dispatchesSoundly_iff (services : Services V) (clz : JavaClass) (method : Method)
    (args : List (Obj V)) :
    DispatchesSoundly services clz method args ↔ ExactOrUnshadowed services clz method args := by
  unfold DispatchesSoundly ExactOrUnshadowed
  simp only [invoked_iff]
  constructor
  · intro h
    by_cases htypes : args.map Obj.runtimeType = method.parameterTypes
    · exact Or.inl htypes
    · refine Or.inr fun bean hb hm => htypes ?_
      have heq := h .throws _ ⟨rfl, bean, hb, hm⟩
      exact congrArg Method.parameterTypes heq
  · rintro (htypes | hnone) outcome invoked ⟨rfl, bean, hb, hm⟩
    · rw [htypes]
    · exact absurd hm (hnone bean hb)

/-! ## All the calls of one method -/

theorem narrows_of_typeCorrect {H : Hierarchy} {method : Method} {args : List (Obj V)}
    (h : TypeCorrect H method args) :
    Narrows H ⟨method.name, args.map Obj.runtimeType⟩ method := by
  unfold Narrows
  rw [List.forall₂_map_right_iff]
  exact List.Forall₂.imp (fun t o ht => ⟨o.getClass.name, rfl, ht⟩) h

theorem exists_args_of_narrows [Inhabited V] {H : Hierarchy} {overload method : Method}
    (h : Narrows H overload method) :
    ∃ args : List (Obj V), TypeCorrect H method args ∧
      args.map Obj.runtimeType = overload.parameterTypes := by
  unfold Narrows at h
  unfold TypeCorrect
  generalize method.parameterTypes = ts at h ⊢
  generalize overload.parameterTypes = ss at h ⊢
  induction h with
  | nil => exact ⟨[], .nil, rfl⟩
  | cons ht _ ih =>
    obtain ⟨c, rfl, hc⟩ := ht
    obtain ⟨args, hargs, htypes⟩ := ih
    exact ⟨⟨⟨c, []⟩, default⟩ :: args, .cons hc hargs, by rw [List.map_cons, htypes]; rfl⟩

/-- Every type-correct call of `method` is dispatched soundly exactly when the registered bean has no
other method of that name that narrows every parameter. -/
theorem all_dispatch_soundly_iff [Inhabited V] (H : Hierarchy) (services : Services V)
    (clz : JavaClass) (method : Method) :
    (∀ args : List (Obj V), TypeCorrect H method args →
      DispatchesSoundly services clz method args) ↔
    ∀ bean, (RpcServerActor.new services).bean clz.name = some bean →
      ∀ overload ∈ bean.getClass.methods, overload.name = method.name → overload ≠ method →
        ¬ Narrows H overload method := by
  simp only [dispatchesSoundly_iff]
  constructor
  · intro h bean hb overload hm hname hne hnarrow
    obtain ⟨args, hargs, htypes⟩ := exists_args_of_narrows (V := V) hnarrow
    have heq : overload = ⟨method.name, args.map Obj.runtimeType⟩ := by
      rw [← hname, htypes]
    rcases h args hargs with hexact | hnone
    · exact hne (by rw [heq, hexact])
    · exact hnone bean hb (heq ▸ hm)
  · intro h args hargs
    by_cases hexact : args.map Obj.runtimeType = method.parameterTypes
    · exact Or.inl hexact
    · refine Or.inr fun bean hb hm => h bean hb _ hm rfl (fun heq => hexact ?_)
        (narrows_of_typeCorrect hargs)
      exact congrArg Method.parameterTypes heq

/-- A call runs the method it names exactly when its arguments have the declared types as runtime
classes or no overload takes their runtime classes; over all type-correct arguments, exactly when no
overload of the bean narrows the method. -/
theorem dispatch_sound_iff [Inhabited V] (services : Services V) (clz : JavaClass)
    (method : Method) :
    (∀ args : List (Obj V), DispatchesSoundly services clz method args ↔
      ExactOrUnshadowed services clz method args) ∧
    ∀ H : Hierarchy, (∀ args : List (Obj V), TypeCorrect H method args →
        DispatchesSoundly services clz method args) ↔
      ∀ bean, (RpcServerActor.new services).bean clz.name = some bean →
        ∀ overload ∈ bean.getClass.methods, overload.name = method.name → overload ≠ method →
          ¬ Narrows H overload method :=
  ⟨dispatchesSoundly_iff services clz method,
    fun H => all_dispatch_soundly_iff H services clz method⟩

/-! ## Calls that find no method -/

/-- `Class.getMethod` succeeds for the call of `method` through the proxy of `clz`. -/
def FindsMethod (services : Services V) (clz : JavaClass) (method : Method)
    (args : List (Obj V)) : Prop :=
  ∃ found, (RpcServerActor.new services).findMethod
    (RpcBeanProxy.callMethod clz method (args.map some)) = .ok found

/-- The runtime classes of the arguments are the declared types, or an overload is declared with
them. -/
def ExactOrOverloaded (bean : Obj V) (method : Method) (args : List (Obj V)) : Prop :=
  args.map Obj.runtimeType = method.parameterTypes ∨
    ∃ overload ∈ bean.getClass.methods, overload.name = method.name ∧ overload ≠ method ∧
      overload.parameterTypes = args.map Obj.runtimeType

theorem findsMethod_iff {services : Services V} {clz : JavaClass} {bean : Obj V}
    (hb : (RpcServerActor.new services).bean clz.name = some bean) (method : Method)
    (args : List (Obj V)) :
    FindsMethod services clz method args ↔
      ⟨method.name, args.map Obj.runtimeType⟩ ∈ bean.getClass.methods := by
  constructor
  · rintro ⟨found, hfound⟩
    rw [← onReceive_invoked _ _ .throws, invoked_iff] at hfound
    obtain ⟨rfl, bean', hb', hm⟩ := hfound
    cases hb.symm.trans hb'
    exact hm
  · intro hm
    refine ⟨⟨method.name, args.map Obj.runtimeType⟩, ?_⟩
    rw [← onReceive_invoked _ _ .throws, invoked_iff]
    exact ⟨rfl, bean, hb, hm⟩

theorem exactOrOverloaded_iff {bean : Obj V} {method : Method} (hm : method ∈ bean.getClass.methods)
    (args : List (Obj V)) :
    ExactOrOverloaded bean method args ↔
      ⟨method.name, args.map Obj.runtimeType⟩ ∈ bean.getClass.methods := by
  constructor
  · rintro (hexact | ⟨overload, ho, hname, -, htypes⟩)
    · rw [hexact]
      exact hm
    · rw [← hname, ← htypes]
      exact ho
  · intro ho
    by_cases hexact : args.map Obj.runtimeType = method.parameterTypes
    · exact Or.inl hexact
    · refine Or.inr ⟨_, ho, rfl, fun heq => hexact ?_, rfl⟩
      exact congrArg Method.parameterTypes heq

/-- Every type-correct call of `method` finds a method exactly when the bean's class declares the
name for all the classes that the parameters admit. -/
theorem all_find_method_iff [Inhabited V] (H : Hierarchy) {services : Services V} {clz : JavaClass}
    {bean : Obj V} (hb : (RpcServerActor.new services).bean clz.name = some bean)
    (method : Method) :
    (∀ args : List (Obj V), TypeCorrect H method args → FindsMethod services clz method args) ↔
      ∀ signature : Method, signature.name = method.name → Narrows H signature method →
        signature ∈ bean.getClass.methods := by
  constructor
  · intro h signature hname hnarrow
    obtain ⟨args, hargs, htypes⟩ := exists_args_of_narrows (V := V) hnarrow
    have hm := (findsMethod_iff hb method args).mp (h args hargs)
    rw [htypes, ← hname] at hm
    exact hm
  · intro h args hargs
    exact (findsMethod_iff hb method args).mpr (h _ rfl (narrows_of_typeCorrect hargs))

/-- A call finds a method exactly when its arguments have the declared types as runtime classes or
an overload is declared with those; over all type-correct arguments, exactly when the bean's class
declares the name for all the classes that the parameters admit. -/
theorem dispatch_complete_iff [Inhabited V] (services : Services V) (clz : JavaClass) (bean : Obj V)
    (hb : (RpcServerActor.new services).bean clz.name = some bean) (method : Method)
    (hm : method ∈ bean.getClass.methods) :
    (∀ args : List (Obj V), FindsMethod services clz method args ↔
      ExactOrOverloaded bean method args) ∧
    ∀ H : Hierarchy, (∀ args : List (Obj V), TypeCorrect H method args →
        FindsMethod services clz method args) ↔
      ∀ signature : Method, signature.name = method.name → Narrows H signature method →
        signature ∈ bean.getClass.methods :=
  ⟨fun args => (findsMethod_iff hb method args).trans (exactOrOverloaded_iff hm args).symm,
    fun H => all_find_method_iff H hb method⟩

end Dispatch

/-! ## An interface with an overload -/

section Overload

def printObject : Method := ⟨"print", [.reference "java.lang.Object"]⟩

def printString : Method := ⟨"print", [.reference "java.lang.String"]⟩

def printer : JavaClass := ⟨"Printer", [printObject, printString]⟩

def printerBean : Obj String := ⟨⟨"PrinterImpl", [printObject, printString]⟩, ""⟩

def javaLang : Hierarchy where
  subtype c d := c = d ∨ d = "java.lang.Object"
  concrete c := c ∈ ["java.lang.Object", "java.lang.String"]

def greeting : Obj String := ⟨⟨"java.lang.String", []⟩, "hello"⟩

/-- `print(Object)` called with a string runs `print(String)`. -/
theorem print_object_runs_print_string :
    printObject ∈ printer.methods ∧ (∀ m ∈ printer.methods, m ∈ printerBean.getClass.methods) ∧
    TypeCorrect javaLang printObject [greeting] ∧
    ((RpcServerActor.new (Tally.put ∅ printer (some printerBean))).onReceive
      (RpcBeanProxy.callMethod printer printObject [some greeting]) (.returns none)).invoked =
        some printString ∧
    ¬ DispatchesSoundly (Tally.put ∅ printer (some printerBean)) printer printObject [greeting] := by
  have hinvoked : ((RpcServerActor.new (Tally.put ∅ printer (some printerBean))).onReceive
      (RpcBeanProxy.callMethod printer printObject [some greeting]) (.returns none)).invoked =
        some printString := by decide
  refine ⟨by decide, by decide, ?_, hinvoked, fun h => ?_⟩
  · exact .cons ⟨by simp [javaLang, greeting], Or.inr rfl⟩ .nil
  · exact absurd (h _ _ hinvoked) (by decide)

end Overload

/-! ## A method with a primitive parameter -/

section Primitive

def setAge : Method := ⟨"setAge", [.primitive .int]⟩

def person : JavaClass := ⟨"Person", [setAge]⟩

def personBean : Obj String := ⟨⟨"PersonImpl", [setAge]⟩, ""⟩

def personServices : Services String := Tally.put ∅ person (some personBean)

def boxes : Hierarchy where
  subtype c d := c = d
  concrete c := c = "java.lang.Integer"

def fortyTwo : Obj String := ⟨⟨"java.lang.Integer", []⟩, "42"⟩

theorem dispatch_complete_iff_setAge :
    (∀ args : List (Obj String), FindsMethod personServices person setAge args ↔
      ExactOrOverloaded personBean setAge args) ∧
    ∀ H : Hierarchy, (∀ args : List (Obj String), TypeCorrect H setAge args →
        FindsMethod personServices person setAge args) ↔
      ∀ signature : Method, signature.name = "setAge" → Narrows H signature setAge →
        signature ∈ personBean.getClass.methods :=
  dispatch_complete_iff personServices person personBean (by decide) setAge (by decide)

/-- `setAge(int)` called with 42 is looked up with the class of the box. -/
theorem set_age_finds_no_method :
    (RpcServerActor.new personServices).bean person.name = some personBean ∧
    setAge ∈ person.methods ∧ (∀ m ∈ person.methods, m ∈ personBean.getClass.methods) ∧
    TypeCorrect boxes setAge [fortyTwo] ∧
    ¬ FindsMethod personServices person setAge [fortyTwo] := by
  refine ⟨by decide, by decide, by decide, .cons ⟨rfl, rfl⟩ .nil, ?_⟩
  have hbean : (RpcServerActor.new personServices).bean person.name = some personBean := by decide
  rw [findsMethod_iff hbean]
  decide

end Primitive

end SbtExample.Rpc
