import Chainwatch.Block
import Chainwatch.Error
import Chainwatch.Queue

/-!
# Feeds

A feed carries heads from a node to a reader, and failures of the node among them. Its end is found
behind the last item.
-/

namespace Chainwatch

structure Feed where
  items : List (Except TrackError Header)
  closed : Bool

namespace Feed

def empty : Feed := ⟨[], false⟩

instance : Inhabited Feed := ⟨empty⟩

def push (f : Feed) (item : Except TrackError Header) : Feed :=
  if f.closed then f else { f with items := f.items ++ [item] }

def close (f : Feed) : Feed :=
  { f with closed := true }

def receive (f : Feed) : Queue.Receipt (Except TrackError Header) × Feed :=
  match f.items with
  | [] => (if f.closed then .ended else .pending, f)
  | item :: rest => (.item item, { f with items := rest })

end Feed

end Chainwatch
