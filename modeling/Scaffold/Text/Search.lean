/-!
# Finding and replacing inside texts

Plain substring operations on lists of characters, each by recursion on the text, with `String`
forms beside them.  Occurrences are found from the left and do not overlap.
-/

namespace Scaffold.Text

/-- The rest of `s` behind `p`, if `s` starts with `p`. -/
def afterStart? : (p s : List Char) → Option (List Char)
  | [], s => some s
  | _ :: _, [] => none
  | a :: p, b :: s => if a = b then afterStart? p s else none

/-- What stands before and behind the first occurrence of `p`. -/
def cutAt? (p : List Char) : List Char → Option (List Char × List Char)
  | [] => if p.isEmpty then some ([], []) else none
  | c :: s =>
    match afterStart? p (c :: s) with
    | some rest => some ([], rest)
    | none => (cutAt? p s).map fun (a, b) => (c :: a, b)

/-- The number of characters before the first occurrence of `p`. -/
def find? (p s : List Char) : Option Nat := (cutAt? p s).map (·.1.length)

/-- Whether `p` occurs in `s`. -/
def occurs (p s : List Char) : Bool := (cutAt? p s).isSome

/-- Pieces of a text between the occurrences of `p`; `skip` characters of an occurrence just met
are still to be passed over, and `piece` is the current piece, last character first. -/
def piecesAux (p : List Char) : (skip : Nat) → (piece : List Char) → List Char → List (List Char)
  | _, piece, [] => [piece.reverse]
  | skip + 1, piece, _ :: s => piecesAux p skip piece s
  | 0, piece, c :: s =>
    if p.isEmpty || (afterStart? p (c :: s)).isNone then piecesAux p 0 (c :: piece) s
    else piece.reverse :: piecesAux p (p.length - 1) [] s

/-- The pieces of `s` between the occurrences of `p`; one more than there are occurrences. -/
def splitAll (p s : List Char) : List (List Char) := piecesAux p 0 [] s

/-- How often `p` occurs in `s`. -/
def count (p s : List Char) : Nat := (splitAll p s).length - 1

/-- `parts` one behind the other with `sep` between neighbours. -/
def joinChars (sep : List Char) : List (List Char) → List Char
  | [] => []
  | [a] => a
  | a :: b :: rest => a ++ sep ++ joinChars sep (b :: rest)

/-- `s` with every occurrence of `p` replaced by `q`. -/
def replaceChars (p q s : List Char) : List Char := joinChars q (splitAll p s)

/-- `s` with every occurrence of `p` replaced by `q`. -/
def replace (p q s : String) : String :=
  String.ofList (replaceChars p.toList q.toList s.toList)

/-- The pieces of a string between the occurrences of `p`. -/
def split (p s : String) : List String := (splitAll p.toList s.toList).map String.ofList

/-- The strings one behind the other with `sep` between neighbours. -/
def join (sep : String) (parts : List String) : String := String.intercalate sep parts

/-- Whether `s` starts with `p`. -/
def startsWith (p s : String) : Bool := p.toList.isPrefixOf s.toList

/-- Whether `s` ends with `p`. -/
def endsWith (p s : String) : Bool := p.toList.reverse.isPrefixOf s.toList.reverse

/-- Whether `p` occurs in `s`. -/
def contains (p s : String) : Bool := occurs p.toList s.toList

/-- What stands before and behind the first occurrence of `p`. -/
def cut? (p s : String) : Option (String × String) :=
  (cutAt? p.toList s.toList).map fun (a, b) => (String.ofList a, String.ofList b)

/-- The first `n` characters. -/
def take (n : Nat) (s : String) : String := String.ofList (s.toList.take n)

/-- The string behind its first `n` characters. -/
def drop (n : Nat) (s : String) : String := String.ofList (s.toList.drop n)

/-- Lines of a text that ends no line with anything but a line feed. -/
def lines (s : String) : List String := split "\n" s

theorem afterStart?_eq_some {p s r : List Char} : afterStart? p s = some r ↔ s = p ++ r := by
  induction p generalizing s with
  | nil => simp [afterStart?, eq_comm]
  | cons a p ih =>
    cases s with
    | nil => simp [afterStart?]
    | cons b s =>
      by_cases h : a = b <;> simp [afterStart?, h, ih]
      intro h'; exact absurd h'.symm h

theorem eq_of_cutAt? {p s a b : List Char} (h : cutAt? p s = some (a, b)) : s = a ++ p ++ b := by
  induction s generalizing a b with
  | nil =>
    unfold cutAt? at h
    split at h <;> simp_all
  | cons c s ih =>
    unfold cutAt? at h
    split at h
    · next rest hr =>
      obtain ⟨rfl, rfl⟩ := by simpa using h
      simpa using afterStart?_eq_some.1 hr
    · obtain ⟨⟨a', b'⟩, h', hab⟩ := Option.map_eq_some_iff.1 h
      obtain ⟨rfl, rfl⟩ := by simpa using hab
      simp [ih h']

end Scaffold.Text
