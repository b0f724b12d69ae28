import DocumentMapper.Event.Basic
import DocumentMapper.Result

/-
  The event bus: who is told of which events, and in which
  order.

  Listeners are told in the order in which they subscribed.
  The first one that fails or throws ends the delivery. An
  event is delivered to those who are subscribed when it is
  published, whatever happens to the bus meanwhile.

  Key definitions include:
    * `Subscription`, `EventBus`
    * `EventBus.subscribe`, `EventBus.unsubscribe`
    * `EventBus.targets`
    * `deliver`
-/

namespace DocumentMapper

------------------------------------------------------------
-- Subscriptions
------------------------------------------------------------

/-
  A listener with its number and the stage it asks for;
  without a stage it asks for all.
-/
structure Subscription (L : Type) where
  id : UInt64
  stage? : Option Stage
  listener : L

namespace Subscription

/- The subscription asks for events of that stage. -/
def accepts
    {L : Type}
    (s : Subscription L)
    (stage : Stage) : Bool :=
  match s.stage? with
  | some own => own = stage
  | none => true

end Subscription

/- Subscriptions in order, and the number of the next one. -/
structure EventBus (L : Type) where
  subscriptions : List (Subscription L) := []
  nextId : UInt64 := 1

namespace EventBus

variable {L : Type}

/- Add a listener behind the others, and give it a number. -/
def subscribe
    (bus : EventBus L)
    (stage? : Option Stage)
    (listener : L) : UInt64 × EventBus L :=
  (bus.nextId,
    { subscriptions :=
        bus.subscriptions ++ [⟨bus.nextId, stage?, listener⟩]
      nextId := bus.nextId + 1 })

/-
  Drop the subscription with a number, and tell whether there
  was one.
-/
def unsubscribe
    (bus : EventBus L)
    (id : UInt64) : Bool × EventBus L :=
  (bus.subscriptions.any fun s => s.id = id,
    { bus with
      subscriptions :=
        bus.subscriptions.eraseP fun s => s.id = id })

/- Those who are told of an event of a stage, in order. -/
def targets
    (bus : EventBus L)
    (stage : Stage) : List L :=
  (bus.subscriptions.filter (·.accepts stage)).map
    (·.listener)

/- The number of subscriptions. -/
def count
    (bus : EventBus L) : Nat :=
  bus.subscriptions.length

end EventBus

------------------------------------------------------------
-- Delivery
------------------------------------------------------------

/- A listener threw. -/
def listenerThrew
    (stage : Stage)
    (what : Text) : Error :=
  .mapping
    (Text.lit "Lifecycle listener threw during " ++
      stage.name ++ Text.lit ": " ++ what)

/-
  The outcome of one listener. Its own error is kept as it
  is; an error whose code is success is none.
-/
def Reply.ofListener
    (stage : Stage)
    (reply : Reply Unit) : Result Unit :=
  match reply with
  | .ok () => .ok ()
  | .failed e => Status.toResult ⟨e⟩
  | .threw what => .error (listenerThrew stage what)

/- Tell listeners one after the other, up to the first that fails. -/
def deliver
    {m : Type → Type}
    [Monad m]
    {L : Type}
    (notify : L → m (Reply Unit))
    (stage : Stage) : List L → m (Result Unit)
  | [] => pure (.ok ())
  | listener :: rest => do
      let reply ← notify listener
      match reply.ofListener stage with
      | .ok () => deliver notify stage rest
      | .error e => pure (.error e)

end DocumentMapper
