/-
This file proves that a caller can always tell the methods of a place apart. Wherever
methods are put on the root or on a step, collisions among them have just been resolved;
numbering steps anew afterwards changes what methods return, and the result is no part
of a signature.
-/

import StagedBuilder.Proofs.Assembly

namespace StagedBuilder

/-- The signatures of the methods of a place do not depend on the numbers of steps. -/
theorem Place.map_signature_mapStep (renumber : Nat → Nat) (place : Place) :
    (place.mapStep renumber).methods.map Method.signature =
      place.methods.map Method.signature := by
  rw [mapStep, List.map_map]
  exact List.map_congr_left fun method _ => Method.signature_mapStep renumber method

/-- No two methods of a place have one signature. -/
theorem Builder.Origin.nodup_signatures {naming : Naming} {root : Root}
    {declarations : List Declaration} {builder : Builder}
    (origin : builder.Origin naming root declarations) {node : CallNode} {place : Place}
    (found : builder.place? node = some place) :
    (place.methods.map Method.signature).Nodup := by
  obtain ⟨-, before, path, -, -, leads, rfl⟩ := origin.exists_place found
  rw [Place.map_signature_mapStep]
  exact leads.furnished.distinct

/-- In every builder the methods of the root have different signatures, and so have those of
each step. -/
theorem nodup_signatures_assemble (system : TypeSystem) (naming : Naming) (root : Root)
    (declarations : List Declaration) :
    ((assemble system naming root declarations).methods.map Method.signature).Nodup ∧
      ∀ step ∈ (assemble system naming root declarations).steps,
        (step.methods.map Method.signature).Nodup := by
  obtain ⟨origin⟩ := nonempty_origin system naming root declarations
  refine ⟨@Builder.Origin.nodup_signatures _ _ _ _ origin .root _ rfl, fun step member => ?_⟩
  obtain ⟨index, found⟩ := List.getElem?_of_mem member
  have isPlace : (assemble system naming root declarations).place? (.step index) =
      some step.place := Option.map_eq_some_iff.2 ⟨step, found, rfl⟩
  rw [← step.methods_place]
  exact origin.nodup_signatures isPlace

end StagedBuilder
