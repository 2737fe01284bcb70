import PackedMap.Slab.Access

/-!
# Runs of bytes

A slab whose bytes are split into a part before, a run and a part after gives back the run when it
is read at its place, and changes nothing but the run when it is written there.
-/

namespace PackedMap
namespace Slab

theorem byteAt_of_split {slab : Slab} {before run after : Bytes} {byte : UInt8}
    (split : slab.data.toList = before ++ run ++ after) (index : Nat)
    (read : run[index]? = some byte) :
    slab.byteAt (before.length + index) = .ok byte := by
  have inside : index < run.length := (List.getElem?_eq_some_iff.mp read).1
  have found : slab.data[before.length + index]? = some byte := by
    rw [← Array.getElem?_toList, split, List.append_assoc,
      List.getElem?_append_right (Nat.le_add_right ..), Nat.add_sub_cancel_left,
      List.getElem?_append_left inside, read]
  rw [byteAt, found, Checked.ofOption_some]

theorem wordAt_of_split {slab : Slab} {before after : Bytes} {word : UInt32}
    (split : slab.data.toList = before ++ Word.toBytes word ++ after) :
    slab.wordAt before.length = .ok word := by
  have first : slab.byteAt before.length = .ok word.toUInt8 := byteAt_of_split split 0 rfl
  have second := byteAt_of_split split 1 rfl
  have third := byteAt_of_split split 2 rfl
  have fourth := byteAt_of_split split 3 rfl
  simp only [wordAt, first, second, third, fourth, Checked.ok_bind, Checked.pure_eq_ok,
    Word.ofBytes_toBytes]

theorem bytesAt_of_split {slab : Slab} {before bytes after : Bytes}
    (split : slab.data.toList = before ++ bytes ++ after) :
    slab.bytesAt before.length bytes.length = .ok bytes := by
  have size : slab.used = before.length + bytes.length + after.length := by
    simp [used, ← Array.length_toList, split, Nat.add_assoc]
  have room : before.length + bytes.length ≤ slab.used := by omega
  rw [bytesAt, if_pos room]
  simp [split]

/-- Writing over a run of the same length exchanges the run. -/
theorem write_of_split {slab : Slab} {before old after bytes : Bytes}
    (split : slab.data.toList = before ++ old ++ after) (same : bytes.length = old.length) :
    slab.write before.length bytes =
      .ok { slab with data := (before ++ bytes ++ after).toArray } := by
  have size : slab.data.size = before.length + old.length + after.length := by
    simp [← Array.length_toList, split, Nat.add_assoc]
  have room : before.length + bytes.length ≤ slab.data.size := by omega
  have data_eq : overwrite slab.data before.length bytes = (before ++ bytes ++ after).toArray := by
    apply Array.toList_inj.mp
    rw [toList_overwrite _ _ _ room, split]
    simp [same, List.drop_append]
  rw [write, used, if_pos room, data_eq]

end Slab
end PackedMap
