/-!
# Refused growth

The one error that a map reports: it would have to grow beyond its limit.  Memory itself is taken
for granted.  An allocator that refuses a request has no place in any definition: a new map gets its
first capacity, a reservation within the limit is granted, and a compaction, a snapshot or a
duplicate gets the room that it asks for.  A refusal by the allocator would leave a map as it was,
just like one by the limit.
-/

namespace PackedMap

/-- A request for more bytes than the limit allows. -/
structure CapacityError where
  /-- Bytes the slab would have to hold, or the greatest 64-bit number if that overflows. -/
  requested : Nat
  /-- The slab's limit in bytes. -/
  limit : Nat
deriving DecidableEq, Repr

/-- The text of the error. -/
def CapacityError.message (refused : CapacityError) : String :=
  "arena capacity exceeded: " ++ toString refused.requested ++ " bytes requested, limit is " ++
    toString refused.limit

end PackedMap
