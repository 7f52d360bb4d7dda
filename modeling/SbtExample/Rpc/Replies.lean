import SbtExample.Rpc.Program

/-! # Replies to a sequence of calls

A server actor works through its mailbox; after an exception it is restarted, that is, constructed
again from the same services. The reply is the last statement of `onReceive`, so that it is sent for
those calls only that get through every step before it with an object to send.
-/
set_option autoImplicit false
set_option maxHeartbeats 250000

namespace SbtExample.Rpc

abbrev ActorRef : Type := ℕ

section Replies
variable {V : Type}

/-- A message in the mailbox of the server, with what invoking the bean's method does if the server
gets there. -/
structure Delivery (V : Type) where
  sender : ActorRef
  event : CallMethod V
  outcome : Outcome V

structure Reply (V : Type) where
  receiver : ActorRef
  body : Except Throwable (Ref V)

def serve (services : Services V) (a : RpcServerActor V) (d : Delivery V) :
    List (Reply V) × RpcServerActor V :=
  match (a.onReceive d.event d.outcome).reply with
  | .error _ => ([], .new services)
  | .ok o => ([⟨d.sender, .ok (some o)⟩], a)

def serveAll (services : Services V) (a : RpcServerActor V) :
    List (Delivery V) → List (List (Reply V))
  | [] => []
  | d :: ds =>
    let served := serve services a d
    served.1 :: serveAll services served.2 ds

/-- What the proxy's `invoke` gives, through the client actor, when these are all the replies to its
call. -/
def invokeWith (replies : List (Reply V)) : Except Throwable (Ref V) :=
  RpcBeanProxy.invoke (RpcClientActor.onReceive (replies.map Reply.body))

/-! ## One call -/

def Delivery.owed (services : Services V) (d : Delivery V) : Reply V :=
  ⟨d.sender, ((RpcServerActor.new services).onReceive d.event d.outcome).result⟩

/-- The bean is there, no argument is `null`, the bean's class has a method with the runtime classes
of the arguments, and it returns an object. -/
def Delivery.Answerable (services : Services V) (d : Delivery V) : Prop :=
  ∃ bean, ∃ args : List (Obj V), ∃ o : Obj V,
    (RpcServerActor.new services).bean d.event.beanName = some bean ∧
    d.event.params.getD [] = args.map some ∧
    ⟨d.event.methodName, args.map Obj.runtimeType⟩ ∈ bean.getClass.methods ∧
    d.outcome = .returns (some o)

theorem reply_eq_ok_iff (services : Services V) (d : Delivery V) (o : Obj V) :
    ((RpcServerActor.new services).onReceive d.event d.outcome).reply = .ok o ↔
      d.Answerable services ∧ d.outcome = .returns (some o) := by
  rw [onReceive_reply]
  refine and_congr_left fun ho => ?_
  constructor
  · rintro ⟨m, hm⟩
    obtain ⟨bean, args, hb, hargs, hmem, hname, htypes⟩ := (findMethod_eq_ok ..).mp hm
    refine ⟨bean, args, o, hb, hargs, ?_, ho⟩
    rw [← hname, ← htypes]
    exact hmem
  · rintro ⟨bean, args, -, hb, hargs, hmem, -⟩
    exact ⟨_, (findMethod_eq_ok ..).mpr ⟨bean, args, hb, hargs, hmem, rfl, rfl⟩⟩

theorem result_of_reply (a : RpcServerActor V) (event : CallMethod V) (outcome : Outcome V)
    (o : Obj V) (h : (a.onReceive event outcome).reply = .ok o) :
    (a.onReceive event outcome).result = .ok (some o) := by
  obtain ⟨⟨m, hm⟩, rfl⟩ := (onReceive_reply ..).mp h
  unfold RpcServerActor.onReceive
  rw [hm]
  rfl

/-- A restart changes nothing: the actor is always as constructed. -/
theorem serve_actor (services : Services V) (d : Delivery V) :
    (serve services (.new services) d).2 = .new services := by
  unfold serve
  cases ((RpcServerActor.new services).onReceive d.event d.outcome).reply <;> rfl

theorem serve_answerable {services : Services V} {d : Delivery V} (h : d.Answerable services) :
    (serve services (.new services) d).1 = [d.owed services] ∧
      invokeWith [d.owed services] ≠ .error .timeout := by
  obtain ⟨bean, args, o, -, -, -, ho⟩ := id h
  have hreply := (reply_eq_ok_iff services d o).mpr ⟨h, ho⟩
  have howed : d.owed services = ⟨d.sender, .ok (some o)⟩ := by
    unfold Delivery.owed
    rw [result_of_reply _ _ _ o hreply]
  rw [howed]
  unfold serve
  rw [hreply]
  refine ⟨rfl, ?_⟩
  intro hinvoke
  cases hinvoke

theorem serve_not_answerable {services : Services V} {d : Delivery V}
    (h : ¬ d.Answerable services) : (serve services (.new services) d).1 = [] := by
  unfold serve
  cases hreply : ((RpcServerActor.new services).onReceive d.event d.outcome).reply with
  | error e => rfl
  | ok o => exact absurd ((reply_eq_ok_iff services d o).mp hreply).1 h

/-! ## A sequence of calls -/

theorem serveAll_eq_map (services : Services V) (ds : List (Delivery V)) :
    serveAll services (.new services) ds = ds.map fun d => (serve services (.new services) d).1 := by
  induction ds with
  | nil => rfl
  | cons d ds ih => rw [serveAll, serve_actor, ih, List.map_cons]

/-- The message at position `i` caused exactly the reply that is owed, and it spares the caller the
timeout. -/
def AnsweredOnce (services : Services V) (ds : List (Delivery V)) (i : Fin ds.length) : Prop :=
  (serveAll services (.new services) ds)[i]? = some [(ds.get i).owed services] ∧
    invokeWith [(ds.get i).owed services] ≠ .error .timeout

theorem serveAll_getElem (services : Services V) (ds : List (Delivery V)) (i : Fin ds.length) :
    (serveAll services (.new services) ds)[i]? =
      some (serve services (.new services) (ds.get i)).1 := by
  rw [serveAll_eq_map]
  simp

theorem answered_once_iff (services : Services V) (ds : List (Delivery V)) (i : Fin ds.length) :
    AnsweredOnce services ds i ↔ (ds.get i).Answerable services := by
  unfold AnsweredOnce
  rw [serveAll_getElem]
  constructor
  · rintro ⟨hreply, -⟩
    by_contra h
    rw [serve_not_answerable h] at hreply
    cases hreply
  · intro h
    obtain ⟨hreply, hinvoke⟩ := serve_answerable h
    exact ⟨by rw [hreply], hinvoke⟩

end Replies

/-! ## A void method -/

def clear : Method := ⟨"clear", []⟩

def store : JavaClass := ⟨"Store", [clear]⟩

def storeBean : Obj String := ⟨⟨"StoreImpl", [clear]⟩, ""⟩

/-- The call of a `void` method is executed, not answered, and times out. -/
theorem void_call_times_out :
    ((RpcServerActor.new (Tally.put ∅ store (some storeBean))).onReceive
      (RpcBeanProxy.callMethod store clear []) (.returns none)).invoked = some clear ∧
    serveAll (Tally.put ∅ store (some storeBean)) (.new (Tally.put ∅ store (some storeBean)))
      [⟨0, RpcBeanProxy.callMethod store clear [], .returns none⟩] = [[]] ∧
    invokeWith ([] : List (Reply String)) = .error .timeout ∧
    ¬ AnsweredOnce (Tally.put ∅ store (some storeBean))
      [⟨0, RpcBeanProxy.callMethod store clear [], .returns none⟩] ⟨0, by decide⟩ := by
  have hnone : serveAll (Tally.put ∅ store (some storeBean))
      (.new (Tally.put ∅ store (some storeBean)))
      [⟨0, RpcBeanProxy.callMethod store clear [], .returns none⟩] = [[]] := by rfl
  refine ⟨by decide, hnone, rfl, fun h => ?_⟩
  have hreply := h.1
  rw [hnone] at hreply
  cases hreply

end SbtExample.Rpc
