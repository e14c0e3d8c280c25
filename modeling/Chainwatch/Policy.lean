import Std.Data.ExtTreeMap.Basic

/-!
# Confirmation policy

How many blocks must follow a block before it counts as final. Each chain has four tiers, from the
quickest to the surest, and a chain without an entry has the default tiers.
-/

namespace Chainwatch

inductive Tier where
  | instant
  | fast
  | safe
  | finalized
  deriving DecidableEq, Repr, Inhabited

namespace Tier

def all : List Tier := [instant, fast, safe, finalized]

def name : Tier → String
  | instant => "instant"
  | fast => "fast"
  | safe => "safe"
  | finalized => "finalized"

def title : Tier → String
  | instant => "Instant"
  | fast => "Fast"
  | safe => "Safe"
  | finalized => "Finalized"

def ofName? (s : String) : Option Tier :=
  all.find? (·.name == s)

end Tier

structure Tiers where
  instant : UInt64
  fast : UInt64
  safe : UInt64
  finalized : UInt64
  deriving DecidableEq, Repr, Inhabited

namespace Tiers

def get (t : Tiers) : Tier → UInt64
  | .instant => t.instant
  | .fast => t.fast
  | .safe => t.safe
  | .finalized => t.finalized

/-- The tiers of a chain without an entry. -/
def standard : Tiers := ⟨1, 6, 12, 64⟩

end Tiers

structure KnownChain where
  chain : UInt64
  name : String
  tiers : Tiers

namespace KnownChain

def all : List KnownChain :=
  [⟨1, "ethereum", ⟨1, 12, 32, 64⟩⟩,
    ⟨11155111, "sepolia", ⟨1, 6, 32, 64⟩⟩,
    ⟨17000, "holesky", ⟨1, 6, 32, 64⟩⟩,
    ⟨10, "optimism", ⟨1, 10, 60, 1800⟩⟩,
    ⟨8453, "base", ⟨1, 10, 60, 1800⟩⟩,
    ⟨42161, "arbitrum", ⟨1, 20, 240, 4800⟩⟩,
    ⟨137, "polygon", ⟨1, 32, 128, 256⟩⟩,
    ⟨56, "bsc", ⟨1, 3, 15, 30⟩⟩,
    ⟨43114, "avalanche", ⟨1, 1, 2, 4⟩⟩,
    ⟨100, "gnosis", ⟨1, 8, 20, 40⟩⟩]

def name? (chain : UInt64) : Option String :=
  (all.find? (·.chain == chain)).map (·.name)

end KnownChain

structure Policy where
  chains : Std.ExtTreeMap UInt64 Tiers
  fallback : Tiers
  deriving DecidableEq

namespace Policy

def uniform (fallback : Tiers) : Policy := ⟨∅, fallback⟩

def builtin : Policy where
  chains := KnownChain.all.foldl (fun m c => m.insert c.chain c.tiers) ∅
  fallback := Tiers.standard

instance : Inhabited Policy := ⟨builtin⟩

/-- The policy with the tiers of one chain set. -/
def withChain (p : Policy) (chain : UInt64) (tiers : Tiers) : Policy :=
  { p with chains := p.chains.insert chain tiers }

def tiers (p : Policy) (chain : UInt64) : Tiers :=
  p.chains.getD chain p.fallback

def threshold (p : Policy) (chain : UInt64) (tier : Tier) : UInt64 :=
  (p.tiers chain).get tier

def isKnown (p : Policy) (chain : UInt64) : Bool :=
  p.chains.contains chain

def entries (p : Policy) : List (UInt64 × Tiers) :=
  p.chains.toList

end Policy

end Chainwatch
