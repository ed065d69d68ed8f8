/-!
Sums, least values and medians of floats. A sum is a fixed order of additions, so that its last bit
is settled: up to 128 terms go into eight running sums side by side; a longer list is halved first.
Of several candidates the first least one leads, and one without a number goes before all others.
-/

namespace SoundAtlas.Numeric

/-! ### Sums -/

def sumLeft (xs : List Float) : Float :=
  xs.foldl (· + ·) 0.0

/-- Adds blocks of eight to eight running sums, joins these in pairs, and adds what is left over
from left to right. -/
def sumBlocks (a b c d e f g h : Float) : List Float → Float
  | p :: q :: r :: s :: t :: u :: v :: w :: rest =>
    sumBlocks (a + p) (b + q) (c + r) (d + s) (e + t) (f + u) (g + v) (h + w) rest
  | rest => rest.foldl (· + ·) (((a + b) + (c + d)) + ((e + f) + (g + h)))

/-- Where a long list is halved: at a multiple of eight. -/
def splitPoint (n : Nat) : Nat :=
  n / 2 - n / 2 % 8

def sumTerms (xs : List Float) : Float :=
  if _h : 128 < xs.length then
    sumTerms (xs.take (splitPoint xs.length)) + sumTerms (xs.drop (splitPoint xs.length))
  else
    match xs with
    | a :: b :: c :: d :: e :: f :: g :: h :: rest => sumBlocks a b c d e f g h rest
    | xs => sumLeft xs
termination_by xs.length
decreasing_by
  · simp only [List.length_take, splitPoint]; omega
  · simp only [List.length_drop, splitPoint]; omega

/-- The sum of a list. It begins at zero, so that negative zeros add up to zero. -/
def sum (xs : List Float) : Float :=
  0.0 + sumTerms xs

/-! ### The first least of several candidates -/

/-- Whether a value takes the lead from the value that leads so far. -/
def overtakes (value lead : Float) : Bool :=
  !lead.isNaN && (value.isNaN || value < lead)

/-- The leading candidate after all of a list have been compared with it, in order. -/
def leader {α : Type} (best : α × Float) : List (α × Float) → α × Float
  | [] => best
  | c :: cs => leader (if overtakes c.2 best.2 then c else best) cs

/-! ### The median -/

def ascending (xs : List Float) : List Float :=
  xs.mergeSort fun a b => decide (a ≤ b)

/-- The middle value, or the mean of the two middle ones; no number if a value is none or there are
no values. -/
def median (xs : List Float) : Float :=
  if xs.any Float.isNaN then 0.0 / 0.0
  else
    let sorted := ascending xs
    let half := sorted.length / 2
    match sorted.length % 2, sorted[half - 1]?, sorted[half]? with
    | 0, some a, some b => (a + b) / 2.0
    | 1, _, some b => b
    | _, _, _ => 0.0 / 0.0

end SoundAtlas.Numeric
