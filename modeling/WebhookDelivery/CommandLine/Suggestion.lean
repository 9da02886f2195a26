/-!
# WebhookDelivery.CommandLine.Suggestion

Names that resemble one that is not known. Two names resemble each other when at least three fifths
of their characters lie in common pieces: the longest piece that both have, and in the same way the
common pieces to the left and to the right of it.
-/

namespace WebhookDelivery
namespace CommandLine

/-- The number of characters with which two texts begin alike. -/
def commonHead : List Char → List Char → Nat
  | a :: as, b :: bs => if a = b then commonHead as bs + 1 else 0
  | _, _ => 0

/-- Where the longest common piece begins in each text, and its length; of pieces of one length the
first. -/
def longestPiece (a b : List Char) : Nat × Nat × Nat :=
  (List.range a.length).foldl (fun best i =>
    (List.range b.length).foldl (fun (best : Nat × Nat × Nat) j =>
      let length := commonHead (a.drop i) (b.drop j)
      if best.2.2 < length then (i, j, length) else best) best) (0, 0, 0)

/-- The number of characters in common pieces, which are looked for at most so often. -/
def sharedLength : (fuel : Nat) → List Char → List Char → Nat
  | 0, _, _ => 0
  | fuel + 1, a, b =>
    let (i, j, length) := longestPiece a b
    if length = 0 then 0
    else
      sharedLength fuel (a.take i) (b.take j) + length +
        sharedLength fuel (a.drop (i + length)) (b.drop (j + length))

def shared (a b : List Char) : Nat := sharedLength a.length a b

def resembles (name known : String) : Bool :=
  3 * (name.length + known.length) ≤ 5 * (2 * shared known.toList name.toList)

/-- The known names that resemble a name, the closest three at most, the closest first. -/
def resembling (name : String) (known : List String) : List String :=
  let score := fun k : String => shared k.toList name.toList
  let closer := fun a b : String =>
    score b * (name.length + a.length) < score a * (name.length + b.length) ||
      (score b * (name.length + a.length) == score a * (name.length + b.length) && b ≤ a)
  ((known.filter (resembles name)).mergeSort closer).take 3

end CommandLine
end WebhookDelivery
