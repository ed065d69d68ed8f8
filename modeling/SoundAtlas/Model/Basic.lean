import SoundAtlas.Index.ModelIndex
import SoundAtlas.Network.Basic

/-!
Models: a trained network with the positions of the tracks on it. All indices follow from these two.
-/

namespace SoundAtlas

structure Model where
  network : Network
  positions : TrackPositions
  trained : network.state = .trained

namespace Model

inductive Error where
  | untrained (state : Network.State)
  | positions (e : Json.ReadError)
deriving DecidableEq, Repr

def Error.message? : Error → Option String
  | .untrained state => some s!"Cannot build a model from a {state.name} network"
  | .positions _ => none

def make (n : Network) (positions : TrackPositions) : Except Error Model :=
  if h : n.state = .trained then .ok ⟨n, positions, h⟩ else .error (.untrained n.state)

def readPosition (v : Json) : Except Json.ReadError Position := do
  let (x, y) ← v.pair
  let x ← x.toInt
  let y ← y.toInt
  return ⟨x, y⟩

def readPositions (v : Json) : Except Json.ReadError PositionSet := do
  let ps ← (← v.elements).mapM readPosition
  return Std.ExtTreeSet.ofList ps

def readRow (row : Json × Json) : Except Json.ReadError (Int × PositionSet) := do
  let track ← row.1.toInt
  let positions ← readPositions row.2
  return (track, positions)

/-- The rows with one more. A row whose track is the same key as that of an earlier one only gives
it other positions. -/
def setRow (row : Json × Json) : List (Json × Json) → List (Json × Json)
  | [] => [row]
  | r :: rs => if r.1.isSameKey row.1 then (r.1, row.2) :: rs else r :: setRow row rs

/-- The model of a network and rows of tracks with their positions. Of two rows for one track the
last one counts. -/
def ofRows (n : Network) (rows : List (Json × Json)) : Except Error Model :=
  if !rows.all fun row => row.1.isKey then .error (.positions .noInteger)
  else if h : n.state = .trained then
    match (rows.foldl (fun rs row => setRow row rs) []).mapM readRow with
    | .ok rows => .ok ⟨n, Std.ExtTreeMap.ofList rows, h⟩
    | .error e => .error (.positions e)
  else .error (.untrained n.state)

/-- Whether two models have equal networks and the same positions. -/
def same (a b : Model) : Bool :=
  a.network.same b.network && decide (a.positions = b.positions)

end Model

end SoundAtlas
