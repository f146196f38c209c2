/-! Cutting a text at separators. A text with `n` separators has `n + 1` pieces, empty ones
included. -/

namespace ClassAtlas

/-- The stretches of a list between the elements that satisfy `sep`. -/
def pieces {α : Type} (sep : α → Bool) : List α → List (List α)
  | [] => [[]]
  | c :: cs =>
    if sep c then [] :: pieces sep cs
    else
      match pieces sep cs with
      | [] => [[c]]
      | p :: ps => (c :: p) :: ps

/-- Cuts at every occurrence of a separator text, leftmost first. Of an occurrence just met,
`skip` characters are still to be passed over; `taken` holds the piece under way, backwards. -/
def cutFrom (sep : List Char) : (skip : Nat) → (taken text : List Char) → List (List Char)
  | _, taken, [] => [taken.reverse]
  | skip + 1, taken, _ :: cs => cutFrom sep skip taken cs
  | 0, taken, c :: cs =>
    if sep.isPrefixOf (c :: cs) then taken.reverse :: cutFrom sep (sep.length - 1) [] cs
    else cutFrom sep 0 (c :: taken) cs

/-- The stretches of a text between the occurrences of a non-empty separator. -/
def cutAll (sep text : List Char) : List (List Char) :=
  cutFrom sep 0 [] text

/-- The text up to the last element that satisfies `sep`, and what follows it; the first part is
`none` without one. -/
def cutLast {α : Type} (sep : α → Bool) : List α → Option (List α) × List α
  | [] => (none, [])
  | c :: cs =>
    match cutLast sep cs with
    | (some front, back) => (some (c :: front), back)
    | (none, back) => if sep c then (some [], back) else (none, c :: back)

end ClassAtlas
