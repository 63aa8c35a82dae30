import Mathlib.Data.List.Pairwise

/-! Lists whose elements have labels, of which the last element with each label counts. -/

namespace KeyDispensary

variable {α β : Type} [DecidableEq β]

/-- Of the elements of a list with one label the last. -/
def lastOfEach (label : α → β) (list : List α) : List α :=
  list.pwFilter fun a b => label a ≠ label b

/-- No two of the last elements have one label. -/
theorem lastOfEach_apart (label : α → β) (list : List α) :
    (lastOfEach label list).Pairwise fun a b => label a ≠ label b :=
  List.pairwise_pwFilter list

/-- The last elements are elements. -/
theorem lastOfEach_subset (label : α → β) (list : List α) : lastOfEach label list ⊆ list :=
  List.pwFilter_subset list

/-- An element is the last with its label exactly if a search from the end finds it. -/
theorem mem_lastOfEach {label : α → β} {list : List α} {element : α} :
    element ∈ lastOfEach label list ↔
      (list.reverse.find? fun other => label other = label element) = some element := by
  -- The induction is on the list, whose first element the search from the end meets last.
  unfold lastOfEach
  induction list generalizing element with
  | nil => simp
  | cons first rest ih =>
    -- An element stays before those that stay exactly if none of the later ones has its label.
    have later : (∀ other ∈ rest.pwFilter fun a b => label a ≠ label b, label first ≠ label other) ↔
        (rest.reverse.find? fun other => label other = label first) = none := by
      rw [List.find?_eq_none]
      constructor
      · intro apart other member same
        obtain ⟨last, found⟩ : ∃ last,
            (rest.reverse.find? fun other => label other = label first) = some last :=
          Option.isSome_iff_exists.1 (List.find?_isSome.2 ⟨other, member, same⟩)
        have labels : label last = label first := by simpa using List.find?_some found
        exact apart last (ih.2 (labels ▸ found)) labels.symm
      · intro none_later other member same
        have present := List.mem_of_find?_eq_some (ih.1 member)
        exact none_later other present (by simp [same])
    rw [List.reverse_cons, List.find?_append]
    -- Either no later element has the label of the first one, or the first one is dropped.
    by_cases none_later : (rest.reverse.find? fun other => label other = label first) = none
    · rw [List.pwFilter_cons_of_pos (later.2 none_later), List.mem_cons, ih]
      by_cases same : label first = label element
      · rw [same] at none_later
        rw [none_later, Option.none_or, List.find?_singleton, if_pos (by simpa using same)]
        simp [eq_comm]
      · have other : element ≠ first := fun here => same (here ▸ rfl)
        simp [same, other]
    · rw [List.pwFilter_cons_of_neg (mt later.1 none_later), ih]
      by_cases same : label first = label element
      · -- The search finds a later element before it comes to the first.
        obtain ⟨last, found⟩ := Option.ne_none_iff_exists'.1 none_later
        rw [same] at found
        simp [found]
      · simp [same]

end KeyDispensary
