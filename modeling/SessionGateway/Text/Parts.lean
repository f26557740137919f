/-!
# Parts of a text

Cutting a text at every separator, or at the first or the last one.
-/

namespace SessionGateway.Text

/-- The parts of a text between separators. -/
def partsAt (sep : Char) : List Char → List (List Char)
  | [] => [[]]
  | c :: rest =>
    match partsAt sep rest with
    | [] => [[c]]
    | part :: parts => if c = sep then [] :: part :: parts else (c :: part) :: parts

/-- What stands before and behind the first separator, if there is one. -/
def atFirst? (sep : Char) (s : List Char) : Option (List Char × List Char) :=
  match s.dropWhile (· ≠ sep) with
  | [] => none
  | _ :: rest => some (s.takeWhile (· ≠ sep), rest)

/-- What stands before and behind the last separator, if there is one. -/
def atLast? (sep : Char) (s : List Char) : Option (List Char × List Char) :=
  (atFirst? sep s.reverse).map fun (behind, before) => (before.reverse, behind.reverse)

end SessionGateway.Text
