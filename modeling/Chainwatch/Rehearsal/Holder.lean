import Chainwatch.Dispatcher

/-!
# Holders

A holder keeps subscriptions under names. A name holds one subscription: putting another under it drops
the one before.
-/

namespace Chainwatch

structure Holder where
  held : List (String × Subscription)
  deriving DecidableEq, Repr

namespace Holder

def empty : Holder := ⟨[]⟩

def find? (h : Holder) (name : String) : Option Subscription :=
  h.held.lookup name

def without (h : Holder) (name : String) : Holder :=
  ⟨h.held.filter (·.1 != name)⟩

def put (h : Holder) (d : Dispatcher) (name : String) (subscription : Subscription) :
    Holder × Dispatcher :=
  (⟨(h.without name).held ++ [(name, subscription)]⟩,
    match h.find? name with
    | some old => old.drop d
    | none => d)

def drop (h : Holder) (d : Dispatcher) (name : String) : Bool × Holder × Dispatcher :=
  match h.find? name with
  | some subscription => (true, h.without name, subscription.drop d)
  | none => (false, h, d)

end Holder

end Chainwatch
