import Mathlib.Data.UInt

/-!
# The surfaces that picture parameters refer to

What the handlers for picture parameters look up of a surface, and how.
-/

namespace NvVaapi.References

abbrev VASurfaceID := UInt32

/-- `NVSurface`, as far as the picture parameters of other pictures depend on it. -/
structure NVSurface where
  width : UInt32
  height : UInt32
  pictureIdx : Int
  orderHint : Int32

/-- The surfaces of the object table. -/
abbrev Surfaces := VASurfaceID → Option NVSurface

def nvSurfaceFromSurfaceId (drv : Surfaces) (id : VASurfaceID) : Option NVSurface := drv id

def pictureIdxFromSurfaceId (drv : Surfaces) (id : VASurfaceID) : Int :=
  match nvSurfaceFromSurfaceId drv id with
  | some surf => surf.pictureIdx
  | none => -1

end NvVaapi.References
