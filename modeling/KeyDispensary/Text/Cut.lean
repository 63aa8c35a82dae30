/-! Lists cut into pieces at every occurrence of a mark. -/

namespace KeyDispensary

/-- Cuts a list at every occurrence of a mark, so that there is one piece more than there are marks. -/
def cutAt {α : Type} [DecidableEq α] (mark : α) : List α → List (List α)
  | [] => [[]]
  | c :: rest =>
    if c = mark then [] :: cutAt mark rest
    else
      match cutAt mark rest with
      | [] => [[c]]
      | first :: more => (c :: first) :: more

end KeyDispensary
