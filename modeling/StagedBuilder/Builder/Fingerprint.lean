/-
This file identifies builders by short texts. The fingerprint of a builder is the
SHA-256 digest of the compact text of its JSON form, so builders that differ in
anything have different fingerprints for all practical purposes.
-/

import StagedBuilder.Builder.Json
import StagedBuilder.Digest256
import StagedBuilder.Json.Printer

namespace StagedBuilder.Builder

/-- The text that a fingerprint is taken of. -/
def canonicalText (builder : Builder) : String := builder.toJson.compact

/-- The digest of the canonical text. -/
def fingerprint (builder : Builder) : String :=
  Digest256.hexadecimal builder.canonicalText.toUTF8.toList

end StagedBuilder.Builder
