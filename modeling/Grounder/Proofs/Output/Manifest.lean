import Grounder.Output.Manifest
import Grounder.Proofs.Json.Decoder

/-!
# `Grounder.Proofs.Output.Manifest`: manifests are read back

A manifest that was printed is read as the same manifest, whatever the names in it are
(`parse?_print`). So the next run knows what the previous one wrote.
-/

set_option autoImplicit false

namespace Grounder

open Json

namespace ManifestEntry

/-- A size survives: it fits the 64 bits without a sign that a size may have. -/
theorem survives_bytes (nesting : Nat) (bytes : UInt64) :
    Survives decodeBytes (fun bytes => .number (.integer bytes.toNat)) nesting bytes := by
  have hbound : bytes.toNat < UInt64.size := bytes.toNat_lt_size
  refine ⟨?_, rfl, ?_, by exact_mod_cast hbound⟩
  · rw [decodeBytes, if_pos ⟨by omega, by exact_mod_cast hbound⟩, Int.toNat_natCast,
      UInt64.ofNat_toNat]
  · have hnonneg := Int.natCast_nonneg bytes.toNat
    have hlow : Int64.minValue.toInt ≤ 0 := by decide
    omega

/-- An entry is read from its members, however its size is written. -/
theorem decode_members {nesting : Nat} (hn : 0 < nesting) (name digest : String) {bytes : UInt64}
    {size : Value} (hsize : decodeBytes (nesting - 1) size = some bytes) :
    decode nesting (.object [("name", .string name), ("sha256", .string digest), ("bytes", size)])
      = some ⟨name, digest, bytes⟩ := by
  rw [decode, Record.of?_object hn (by decide) (by exact .refl _)]
  simp [hsize]

/-- An entry survives where a level of nesting is left for it. -/
theorem survives {nesting : Nat} (hn : 0 < nesting) (e : ManifestEntry) :
    Survives decode toJson nesting e := by
  obtain ⟨hdecodes, hfits⟩ := survives_bytes (nesting - 1) e.bytes
  constructor
  · exact decode_members hn e.name e.digest hdecodes
  · rw [toJson]
    exact fits_object hn (by simp [hfits])

end ManifestEntry

namespace Manifest

/-- A manifest survives where three levels of nesting are left for it. -/
theorem survives {nesting : Nat} (hn : 2 < nesting) (m : Manifest) :
    Survives decode toJson nesting m := by
  have hentries : Survives (.list ManifestEntry.decode) (.ofList ManifestEntry.toJson) (nesting - 1)
      m.entries := by
    refine survives_list (by omega) fun e _ => ?_
    exact ManifestEntry.survives (by omega) e
  have hn : 0 < nesting := by omega
  constructor
  · rw [decode, toJson, Record.of?_object hn (by decide) (by exact .refl _)]
    simp [hentries.decodes]
  · rw [toJson]
    exact fits_object hn (by simp [hentries.fits])

/-- A manifest that was printed is read as the same manifest. -/
theorem parse?_print (m : Manifest) : parse? m.print = some m := by
  have hm : Survives decode toJson maxNesting m := survives (by decide) m
  rw [parse?, print, Value.spread, Reader.read_print Layout.isBlank_spread hm.fits.plain]
  exact hm.decodes

end Manifest

end Grounder
