/-!
# Similar words

How alike two words are: twice the number of characters they have in common, over the sum of their
lengths.  In common are the longest run of characters that occurs in both, and what is in common before
it and behind it.  In a long second word, characters that occur often do not begin a run.
-/

namespace Scaffold

namespace Text

/-- The longest common run: where it starts in both words, and its length. -/
structure Run where
  start : Nat := 0
  start' : Nat := 0
  size : Nat := 0
  deriving DecidableEq, Inhabited, Repr

/-- Whether a character occurs too often in a long word to begin a run. -/
def isFrequent (word : List Char) (c : Char) : Bool :=
  200 ≤ word.length && word.length / 100 + 1 < word.count c

/-- The lengths of the runs that end at a character `c` of the first word and at each character of the
second one, given those that end one character before; `last` is that before the first of them. -/
def runLengths (common : Char → Bool) (c : Char) : (last : Nat) → List Char → List Nat → List Nat
  | _, [], _ => []
  | last, d :: b, lengths =>
    (if c == d && common d then last + 1 else 0) :: runLengths common c (lengths.headD 0) b lengths.tail

/-- The longer of a run and those that end at character `i`; of equally long ones the first. -/
def longerRun (i : Nat) : (j : Nat) → Run → List Nat → Run
  | _, best, [] => best
  | j, best, n :: lengths =>
    longerRun i (j + 1) (if best.size < n then ⟨i + 1 - n, j + 1 - n, n⟩ else best) lengths

/-- The longest run in the rest of the first word. -/
def longestFrom (common : Char → Bool) (b : List Char) : (i : Nat) → (lengths : List Nat) → Run →
    List Char → Run
  | _, _, best, [] => best
  | i, lengths, best, c :: a =>
    let now := runLengths common c 0 b lengths
    longestFrom common b (i + 1) now (longerRun i 0 best now) a

/-- The number of characters at the front that two words have in common. -/
def commonFront : List Char → List Char → Nat
  | c :: a, d :: b => if c == d then commonFront a b + 1 else 0
  | _, _ => 0

/-- The longest common run, extended on both sides as far as the words agree. -/
def longestRun (common : Char → Bool) (a b : List Char) : Run :=
  let r := longestFrom common b 0 [] {} a
  let before := commonFront (a.take r.start).reverse (b.take r.start').reverse
  let behind := commonFront (a.drop (r.start + r.size)) (b.drop (r.start' + r.size))
  ⟨r.start - before, r.start' - before, before + r.size + behind⟩

/-- The number of characters in common.  `fuel` bounds the number of runs. -/
def inCommon (common : Char → Bool) : (fuel : Nat) → List Char → List Char → Nat
  | 0, _, _ => 0
  | fuel + 1, a, b =>
    let r := longestRun common a b
    if r.size = 0 then 0
    else inCommon common fuel (a.take r.start) (b.take r.start') + r.size +
      inCommon common fuel (a.drop (r.start + r.size)) (b.drop (r.start' + r.size))

/-- How alike two words are, as a fraction; two empty words are alike. -/
def likeness (a b : String) : Nat × Nat :=
  let (x, y) := (a.toList, b.toList)
  let total := x.length + y.length
  if total = 0 then (1, 1)
  else (2 * inCommon (fun c => !isFrequent y c) (x.length + 1) x y, total)

/-- Whether a fraction is greater than another. -/
def exceeds (a b : Nat × Nat) : Bool := b.1 * a.2 < a.1 * b.2

/-- The words most like a given one, at least half alike: the likest first, and of equally like ones the
last in order first. -/
def similar (limit : Nat) (word : String) (words : List String) : List String :=
  let scored := (words.map fun w => (likeness w word, w)).filter fun e => !exceeds (1, 2) e.1
  let ordered := scored.mergeSort fun a b =>
    exceeds a.1 b.1 || (!exceeds b.1 a.1 && decide (b.2 ≤ a.2))
  (ordered.take limit).map (·.2)

end Text

end Scaffold
