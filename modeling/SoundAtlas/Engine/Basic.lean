import SoundAtlas.Feature.Registry
import SoundAtlas.Index.ModelIndex
import SoundAtlas.Model.Basic
import SoundAtlas.Network.Training
import SoundAtlas.Random.Pcg
import SoundAtlas.Random.Twister
import SoundAtlas.Settings.Basic

/-!
The engine: what it is asked with, what it has published, and its two sources of random choices, one
for training and one for queries.
-/

namespace SoundAtlas

/-- A model with all that follows from it; it is published as one. -/
structure Published where
  model : Model
  index : ModelIndex
  median : Float

structure Engine where
  settings : Settings
  registry : Registry
  /-- What is trained on unless other features are given. -/
  defaults : FeatureSettings
  /-- Cancels loading, for good. -/
  token : Network.CancellationToken
  /-- The choices of training. -/
  generator : Random.Pcg
  /-- The choices of queries. -/
  evictions : Random.Twister
  published : Option Published

namespace Engine

/-- An engine that has nothing loaded yet, unless the seed is negative. Without a seed the given one
is used; without default features the standard ones are. -/
def make (settings : Settings) (registry : Registry) (defaults : FeatureSettings)
    (freshSeed : Nat) : Except Network.Error Engine :=
  let seed := settings.seed.getD freshSeed
  if seed < 0 then .error .negativeSeed
  else .ok
    { settings := settings
      registry := registry
      defaults := if defaults.isEmpty then .standard else defaults
      token := .fresh
      generator := .ofSeed seed.toNat
      evictions := .ofSeed seed
      published := none }

def cancel (e : Engine) : Engine :=
  { e with token := e.token.cancel }

def cancelRequested (e : Engine) : Bool :=
  e.token.isCancelled

def isLoaded (e : Engine) : Bool :=
  e.published.isSome

def model? (e : Engine) : Option Model :=
  e.published.map (·.model)

end Engine

end SoundAtlas
