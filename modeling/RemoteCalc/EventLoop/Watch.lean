import RemoteCalc.EventLoop.Streams

/-!
# Watching an event loop

A watcher makes clients connect, send and leave, lets the loop turn, and looks at
the counters and at what each client has received since the last look.
-/

namespace RemoteCalc.EventLoop

open Wire

inductive Deed where
  | move (move : Loop.Move)
  | leave (client : Nat)
  | wait
  deriving DecidableEq, Repr

structure Sight where
  client : Nat
  received : Bytes
  closed : Bool
  deriving DecidableEq, Repr

structure Look where
  counters : Counters
  openCount : Nat
  clients : List Sight
  deriving DecidableEq, Repr

structure Watched where
  seen : Nat
  left : Bool
  deriving DecidableEq, Repr

structure Watch where
  loop : Loop
  clients : List Watched
  deriving DecidableEq, Repr

namespace Watch

def start : Watch := ⟨.start, []⟩

def perform (watch : Watch) : Deed → Watch
  | .move (.connect data) =>
      { loop := watch.loop.move (.connect data)
        clients := watch.clients ++ [⟨0, false⟩] }
  | .move move => { watch with loop := watch.loop.move move }
  | .leave client =>
      { loop := watch.loop.move (.finish client)
        clients := watch.clients.modify client fun watched => { watched with left := true } }
  | .wait => watch

def sights (watch : Watch) : List Sight :=
  watch.clients.zipIdx.filterMap fun (watched, client) =>
    if watched.left then none
    else
      some ⟨client, (watch.loop.writtenTo client).drop watched.seen,
        watch.loop.hasClosed client⟩

def markSeen (watch : Watch) : Watch :=
  { watch with
    clients := watch.clients.zipIdx.map fun (watched, client) =>
      { watched with seen := (watch.loop.writtenTo client).length } }

def look (watch : Watch) : Look :=
  ⟨watch.loop.counters, watch.loop.openCount, watch.sights⟩

def act (service : Service) (watch : Watch) (deed : Deed) (deferred : Bool) :
    Option Look × Watch :=
  let watch := watch.perform deed
  if deferred then (none, watch)
  else
    let watch := { watch with loop := watch.loop.turn service }
    (some watch.look, watch.markSeen)

def actAll (service : Service) (watch : Watch) : List (Deed × Bool) → List (Option Look)
  | [] => []
  | (deed, deferred) :: rest =>
      let (look, watch) := watch.act service deed deferred
      look :: actAll service watch rest

end Watch

end RemoteCalc.EventLoop
