import LadderMonitor.Memory.Image
import Mathlib.Tactic.SplitIfs

namespace LadderMonitor.Bytes

/-- The bytes of an image from an address on. -/
def ofImage (image : Int → UInt8) (start size : Int) : Bytes :=
  Array.ofFn fun i : Fin size.toNat => image (start + i)

variable {image : Int → UInt8} {start size : Int}

@[simp] theorem size_ofImage : (ofImage image start size).size = size.toNat := Array.size_ofFn

theorem getElem?_ofImage {i : Nat} (hi : i < size.toNat) :
    (ofImage image start size)[i]? = some (image (start + i)) := by
  rw [ofImage, Array.getElem?_ofFn, dif_pos hi]

theorem position_of_inside (bytes : Bytes) {index : Int} (hnonneg : 0 ≤ index)
    (hinside : index ≤ bytes.size) : bytes.position index = index.toNat := by
  rw [position, if_neg (by omega)]
  omega

theorem getElem?_slice (bytes : Bytes) (hstart : 0 ≤ start) (hsize : 0 ≤ size)
    (hinside : start + size ≤ bytes.size) (i : Nat) :
    (bytes.slice start (start + size))[i]? =
      if i < size.toNat then bytes[start.toNat + i]? else none := by
  rw [slice, position_of_inside bytes hstart (by omega),
    position_of_inside bytes (by omega) hinside, Array.getElem?_extract]
  by_cases hi : i < size.toNat
  · rw [if_pos (by omega), if_pos hi]
  · rw [if_neg (by omega), if_neg hi]

theorem size_slice (bytes : Bytes) (hstart : 0 ≤ start) (hsize : 0 ≤ size)
    (hinside : start + size ≤ bytes.size) :
    (bytes.slice start (start + size)).size = size.toNat := by
  rw [slice, position_of_inside bytes hstart (by omega),
    position_of_inside bytes (by omega) hinside, Array.size_extract]
  omega

/-- A window of a window is a window. -/
theorem slice_ofImage {start' size' : Int} (hstart : start ≤ start') (hsize : 0 ≤ size')
    (hstop : start' + size' ≤ start + size) :
    (ofImage image start size).slice (start' - start) (start' - start + size') =
      ofImage image start' size' := by
  refine Array.ext_getElem? fun i => ?_
  rw [getElem?_slice _ (by omega) hsize (by rw [size_ofImage]; omega)]
  by_cases hi : i < size'.toNat
  · rw [if_pos hi, getElem?_ofImage (by omega), getElem?_ofImage hi]
    congr 2
    omega
  · rw [if_neg hi, Array.getElem?_eq_none (by simpa using hi)]

/-- What an image of memory shows at an address. -/
def shown (bytes : Bytes) (address : Int) : UInt8 := bytes.getD address.toNat 0

theorem slice_eq_ofImage (bytes : Bytes) (hstart : 0 ≤ start) (hsize : 0 ≤ size)
    (hinside : start + size ≤ bytes.size) :
    bytes.slice start (start + size) = ofImage bytes.shown start size := by
  refine Array.ext_getElem? fun i => ?_
  rw [getElem?_slice bytes hstart hsize hinside]
  by_cases hi : i < size.toNat
  · have hplace : (start + i).toNat = start.toNat + i := by omega
    rw [if_pos hi, getElem?_ofImage hi, shown, hplace,
      Array.getD_eq_getD_getElem?, Array.getElem?_eq_getElem (by omega)]
    rfl
  · rw [if_neg hi, Array.getElem?_eq_none (by simpa using hi)]

/-- Bytes that show an image show it in each of their windows. -/
theorem slice_eq_of_shows (bytes : Bytes) (hstart : 0 ≤ start) (hsize : 0 ≤ size)
    (hinside : start + size ≤ bytes.size)
    (hshows : ∀ i : Nat, start ≤ i → i < start + size → bytes[i]? = some (image i)) :
    bytes.slice start (start + size) = ofImage image start size := by
  rw [slice_eq_ofImage bytes hstart hsize hinside]
  refine Array.ext_getElem? fun i => ?_
  by_cases hi : i < size.toNat
  · have hplace : start + i = (start + i).toNat := by omega
    rw [getElem?_ofImage hi, getElem?_ofImage hi, shown, Array.getD_eq_getD_getElem?,
      hshows (start + i).toNat (by omega) (by omega), Option.getD_some, ← hplace]
  · rw [Array.getElem?_eq_none (by simpa using hi), Array.getElem?_eq_none (by simpa using hi)]

/-- Bytes that are put over others show where they are put, and the others elsewhere. -/
theorem getElem?_overwrite (bytes : Bytes) (address : Int) (data : List UInt8) {i : Nat}
    (hi : i < bytes.size) :
    (bytes.overwrite address data)[i]? =
      if address ≤ i ∧ i < address + data.length then data[(i - address).toNat]?
      else bytes[i]? := by
  induction data generalizing bytes address with
  | nil =>
    rw [overwrite, if_neg (by simp)]
  | cons b rest ih =>
    rw [overwrite, ih _ _ (by split <;> simpa using hi), List.length_cons]
    by_cases hfirst : (i : Int) = address
    · rw [if_neg (by omega), if_pos (by omega), if_pos (by omega)]
      have hplace : address.toNat = i := by omega
      rw [hplace, Array.getElem?_setIfInBounds_self_of_lt hi, ← hfirst]
      simp
    · by_cases hinside : address ≤ i ∧ i < address + (rest.length + 1)
      · rw [if_pos (by omega), if_pos (by push_cast; omega)]
        rw [show ((i : Int) - address).toNat = ((i : Int) - (address + 1)).toNat + 1 by omega]
        exact (List.getElem?_cons_succ).symm
      · have hkept : (if 0 ≤ address then bytes.setIfInBounds address.toNat b else bytes)[i]? =
            bytes[i]? := by
          split
          · exact Array.getElem?_setIfInBounds_ne (by omega)
          · rfl
        rw [if_neg (by omega), hkept, if_neg (by push_cast; omega)]

/-- A window of an image that is put in its place shows the image there. -/
theorem getElem?_overwrite_ofImage (bytes : Bytes) {i : Nat} (hi : i < bytes.size) :
    (bytes.overwrite start (ofImage image start size).toList)[i]? =
      if start ≤ i ∧ i < start + size then some (image i) else bytes[i]? := by
  rw [getElem?_overwrite bytes start _ hi, Array.length_toList, size_ofImage]
  by_cases hinside : start ≤ i ∧ i < start + size
  · rw [if_pos (by omega), if_pos hinside, Array.getElem?_toList, getElem?_ofImage (by omega)]
    congr 2
    omega
  · rw [if_neg (by omega), if_neg hinside]

/-- Bytes that are put over others leave those elsewhere. -/
theorem getElem?_overwrite_of_outside {bytes : Bytes} {address : Int} {data : List UInt8} {i : Nat}
    (houtside : ¬ (address ≤ i ∧ i < address + data.length)) :
    (bytes.overwrite address data)[i]? = bytes[i]? := by
  by_cases hi : i < bytes.size
  · rw [getElem?_overwrite bytes address data hi, if_neg houtside]
  · rw [Array.getElem?_eq_none (by simpa using hi), Array.getElem?_eq_none (by simpa using hi)]

variable {bytes : Bytes} {address : Int} {data : List UInt8}

/-- Bytes put in place of as many others are put over them. -/
theorem splice_eq_overwrite (haddress : 0 ≤ address) (hstop : address + data.length ≤ bytes.size) :
    bytes.splice address (address + data.length) data = bytes.overwrite address data := by
  have hafter : max address.toNat (address + data.length).toNat = address.toNat + data.length := by
    omega
  have hbefore : (bytes.extract 0 address.toNat).size = address.toNat := by
    rw [Array.size_extract]
    omega
  rw [splice, position_of_inside bytes haddress (by omega),
    position_of_inside bytes (by omega) hstop, hafter]
  refine Array.ext_getElem? fun i => ?_
  by_cases hi : i < bytes.size
  · rw [getElem?_overwrite bytes address data hi, Array.getElem?_append, Array.size_append, hbefore,
      List.size_toArray]
    by_cases hbehind : i < address.toNat + data.length
    · rw [if_pos hbehind, Array.getElem?_append, hbefore]
      by_cases hfront : i < address.toNat
      · rw [if_pos hfront, if_neg (by omega), Array.getElem?_extract, if_pos (by omega),
          Nat.zero_add]
      · have hplace : (i - address : Int).toNat = i - address.toNat := by omega
        rw [if_neg hfront, if_pos (by omega), List.getElem?_toArray, hplace]
    · have hplace : address.toNat + data.length + (i - (address.toNat + data.length)) = i := by
        omega
      rw [if_neg hbehind, if_neg (by omega), Array.getElem?_extract, if_pos (by omega), hplace]
  · rw [Array.getElem?_eq_none, Array.getElem?_eq_none (by simpa using hi)]
    rw [Array.size_append, Array.size_append, hbefore, Array.size_extract, List.size_toArray]
    omega

theorem size_splice (haddress : 0 ≤ address) (hstop : address + data.length ≤ bytes.size) :
    (bytes.splice address (address + data.length) data).size = bytes.size := by
  rw [splice_eq_overwrite haddress hstop, size_overwrite]

/-- Bytes that are put into an image are found there. -/
theorem toList_slice_splice (haddress : 0 ≤ address)
    (hstop : address + data.length ≤ bytes.size) :
    ((bytes.splice address (address + data.length) data).slice address
      (address + data.length)).toList = data := by
  refine List.ext_getElem? fun i => ?_
  rw [Array.getElem?_toList, getElem?_slice _ haddress (Int.natCast_nonneg _)
    (by rwa [size_splice haddress hstop]), Int.toNat_natCast]
  by_cases hi : i < data.length
  · have hplace : ((address.toNat + i : Nat) - address : Int).toNat = i := by omega
    rw [if_pos hi, splice_eq_overwrite haddress hstop, getElem?_overwrite _ _ _ (by omega),
      if_pos (by omega), hplace]
  · rw [if_neg hi, List.getElem?_eq_none (by omega)]

end LadderMonitor.Bytes
