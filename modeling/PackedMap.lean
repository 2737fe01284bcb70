import PackedMap.Comparator.Audit
import PackedMap.Map.Merge
import PackedMap.Session.Basic
import PackedMap.Session.Workbench
import PackedMap.Text.Inspect
import PackedMap.Proofs.Slab.Runs
import PackedMap.Proofs.Slab.Cell
import PackedMap.Proofs.Slab.Tiling
import PackedMap.Proofs.Slab.Stock
import PackedMap.Proofs.Slab.Growth
import PackedMap.Proofs.Slab.Storing
import PackedMap.Proofs.Slab.Walking
import PackedMap.Proofs.Slab.Succession
import PackedMap.Proofs.Tree.Shape
import PackedMap.Proofs.Tree.Held
import PackedMap.Proofs.Tree.Rotation
import PackedMap.Proofs.Sweep
import PackedMap.Proofs.Tree.Insert
import PackedMap.Proofs.Tree.Remove
import PackedMap.Proofs.Tree.Search
import PackedMap.Proofs.Tree.Sorted
import PackedMap.Proofs.Map.State
import PackedMap.Proofs.Map.Matching
import PackedMap.Proofs.Map.Update
import PackedMap.Proofs.Map.Sorted
import PackedMap.Proofs.Map.Step
import PackedMap.Proofs.Map.Copying
import PackedMap.Proofs.Map.Duplicate
import PackedMap.Proofs.Reachable
import PackedMap.Proofs.Map.Cost
import PackedMap.Proofs.Intact
import PackedMap.Proofs.SortedList
import PackedMap.Proofs.Stability
import PackedMap.Proofs.MatchWalk
import PackedMap.Proofs.EntryWalk
import PackedMap.Proofs.Iteration
import PackedMap.Proofs.Rollback
import PackedMap.Proofs.Ownership
import PackedMap.Proofs.Matches
import PackedMap.Proofs.Faultless
import PackedMap.Proofs.Compaction
import PackedMap.Proofs.Transparency
import PackedMap.Proofs.Reservation
import PackedMap.Proofs.CopyOrder
import PackedMap.Proofs.RecordStore
import PackedMap.Proofs.Map.Alike
import PackedMap.Proofs.SpareRoom
import PackedMap.Proofs.Comparator.Canonical
import PackedMap.Proofs.Tree.Depth
import PackedMap.Proofs.Map.Admitting
import PackedMap.Proofs.Shallow
import PackedMap.Proofs.Tree.Bearing
import PackedMap.Proofs.Removal
import PackedMap.Proofs.Slab.WordSizes
import PackedMap.Proofs.WordSizes
import PackedMap.Proofs.Insertion
import PackedMap.Proofs.Neighbors
import PackedMap.Proofs.Packed
import PackedMap.Proofs.Merging
import PackedMap.Proofs.Granting
import PackedMap.Proofs.Traceless
import PackedMap.Proofs.Replacement
import PackedMap.Proofs.Lookups
import PackedMap.Proofs.Comparator.Audit
import PackedMap.Proofs.Construction
import PackedMap.Proofs.Rebalancing
import PackedMap.Proofs.Refusal
