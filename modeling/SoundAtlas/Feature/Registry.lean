import SoundAtlas.Json.Basic
import SoundAtlas.Number.Quotient
import SoundAtlas.Text.Quoted

/-!
The features that are known, each with the number of values that it has.
-/

namespace SoundAtlas

/-- The name of a feature: the keys that lead to its values in a document, with points between
them. -/
abbrev FeatureName := Json.Text

/-- The known features. A feature's number of values is known beforehand, and never inferred from
what a track has. -/
abbrev Registry := List (FeatureName × Int)

/-- The weight of each feature that is trained on, in the order in which they were set. -/
abbrev FeatureSettings := List (FeatureName × Float)

namespace Feature

inductive Error where
  | unknown (name : FeatureName)
  | arithmetic (e : Number.ArithmeticError)
  /-- A number of values is no count: it does not fit into a signed word of 64 bits. -/
  | noCount
  /-- There is no room for so many values. -/
  | noRoom
deriving DecidableEq, Repr

/-- The wording of an error. Only an unknown feature has one. -/
def Error.message? : Error → Option String
  | .unknown name => some ("Unknown feature: " ++ Text.quoted name.codes)
  | .arithmetic _ | .noCount | .noRoom => none

end Feature

namespace Registry

def standard : Registry :=
  [("lowlevel.average_loudness", 1),
   ("lowlevel.barkbands.mean", 27),
   ("lowlevel.dynamic_complexity", 1),
   ("lowlevel.erbbands.mean", 40),
   ("lowlevel.gfcc.mean", 13),
   ("lowlevel.melbands.mean", 40),
   ("lowlevel.mfcc.mean", 13),
   ("lowlevel.spectral_centroid.mean", 1),
   ("lowlevel.spectral_contrast_coeffs.mean", 6),
   ("lowlevel.spectral_contrast_valleys.var", 6),
   ("lowlevel.spectral_energyband_high.mean", 1),
   ("lowlevel.spectral_energyband_low.mean", 1),
   ("lowlevel.spectral_flux.mean", 1),
   ("lowlevel.spectral_rolloff.median", 1),
   ("lowlevel.zerocrossingrate.mean", 1),
   ("rhythm.bpm", 1),
   ("rhythm.danceability", 1),
   ("tonal.hpcp.mean", 36)]

def dimensions (r : Registry) (name : FeatureName) : Except Feature.Error Int :=
  match List.lookup name r with
  | some n => .ok n
  | none => .error (.unknown name)

end Registry

namespace FeatureSettings

/-- What is trained on unless settings are given. -/
def standard : FeatureSettings :=
  [("lowlevel.spectral_energyband_high.mean", 1.0),
   ("lowlevel.spectral_rolloff.median", 1.0),
   ("lowlevel.spectral_contrast_valleys.var", 1.0),
   ("lowlevel.erbbands.mean", 1.0),
   ("lowlevel.gfcc.mean", 1.0)]

def names (s : FeatureSettings) : List FeatureName :=
  s.map (·.1)

end FeatureSettings

end SoundAtlas
