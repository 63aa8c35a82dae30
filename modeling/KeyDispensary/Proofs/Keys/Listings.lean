import KeyDispensary.Proofs.Keys.Operations
import KeyDispensary.Proofs.Keys.Slots
import KeyDispensary.Proofs.Store.Following
import KeyDispensary.Proofs.Store.Paging

/-!
What a listing of devices makes of any rows, also of sort keys that are no devices. It goes page by page,
and a page with such a key lists nothing. Main statement: `Slots.list_run`.
-/

namespace KeyDispensary

/-- The first sort key that is no device, and its place. -/
structure Spoils (sorts : List Bytes) (place : Nat) (sort : Bytes) : Prop where
  here : sorts[place]? = some sort
  bad : sort.length ≠ 1
  first : ∀ earlier < place, ∀ other, sorts[earlier]? = some other → other.length = 1

namespace Spoils

variable {sorts : List Bytes} {place place' : Nat} {sort sort' : Bytes}

/-- There is one first sort key that is no device. -/
theorem unique (spoils : Spoils sorts place sort) (spoils' : Spoils sorts place' sort') :
    place = place' ∧ sort = sort' := by
  -- Neither place can come before the other.
  obtain rfl : place = place' := by
    rcases Nat.lt_trichotomy place place' with less | same | less
    · exact absurd (spoils'.first _ less _ spoils.here) spoils.bad
    · exact same
    · exact absurd (spoils.first _ less _ spoils'.here) spoils'.bad
  exact ⟨rfl, Option.some.inj (spoils.here.symm.trans spoils'.here)⟩

/-- Behind sort keys of devices, the first that is no device is found in the rest. -/
theorem of_drop {devices : List Device} {count : Nat}
    (before : devices.map Device.lead = sorts.take count)
    (spoils : Spoils (sorts.drop count) place sort) :
    Spoils sorts (count + place) sort where
  here := by rw [← List.getElem?_drop, spoils.here]
  bad := spoils.bad
  first earlier less other found := by
    by_cases front : earlier < count
    · -- The sort keys in front are those of devices.
      rw [← List.getElem?_take_of_lt front, ← before, List.getElem?_map] at found
      obtain ⟨device, _, rfl⟩ := Option.map_eq_some_iff.1 found
      rfl
    · -- Behind the front, the places are counted from there.
      refine spoils.first (earlier - count) (by omega) other ?_
      rw [List.getElem?_drop, Nat.add_sub_cancel' (by omega)]
      exact found

/-- The first of some sort keys that is no device is the first of all. -/
theorem of_take {count : Nat} (spoils : Spoils (sorts.take count) place sort) :
    Spoils sorts place sort := by
  -- The place is within the part that was taken.
  have inside : place < count := by
    have found := (List.getElem?_eq_some_iff.1 spoils.here).1
    rw [List.length_take] at found
    omega
  exact {
    here := by rw [← List.getElem?_take_of_lt inside, spoils.here]
    bad := spoils.bad
    first := fun earlier less other found =>
      spoils.first earlier less other ((List.getElem?_take_of_lt (by omega)).trans found) }

/-- No sort key that is no device stands among those of devices. -/
theorem not_before {devices : List Device} {count : Nat}
    (before : devices.map Device.lead = sorts.take count) (spoils : Spoils sorts place sort) :
    count ≤ place := by
  -- Among the sort keys of devices there is none of another length.
  refine Nat.le_of_not_lt fun front => ?_
  have found := spoils.here
  rw [← List.getElem?_take_of_lt front, ← before, List.getElem?_map] at found
  obtain ⟨device, _, rfl⟩ := Option.map_eq_some_iff.1 found
  exact spoils.bad rfl

/-- A sort key that is no device stands on a page behind those that show devices alone. -/
theorem not_on_pages {devices : List Device} {pages : Nat}
    (before : devices.map Device.lead = sorts.take (Slots.pageSize * pages))
    (spoils : Spoils sorts place sort) :
    Slots.pageSize * pages ≤ Slots.pageSize * (place / Slots.pageSize) := by
  -- Rows before the malformed one fill their pages with devices.
  have late := Nat.div_le_div_right (c := Slots.pageSize) (spoils.not_before before)
  rw [Nat.mul_div_cancel_left _ (by decide)] at late
  exact Nat.mul_le_mul_left _ late

end Spoils

/-- A sort key of another length than one is refused. -/
theorem deviceOf_of_length {table : String} {sort : Bytes} (refused : sort.length ≠ 1) :
    deviceOf table sort = .error (.malformed table (.sortKey sort.length)) := by
  unfold deviceOf
  split
  · exact absurd rfl refused
  · rfl

/-- Items show devices, or the first sort key that is no device is reported. -/
theorem devicesOf_cases (table : String) (items : List Item) :
    (∃ devices : List Device, devicesOf table items = .ok devices ∧
      devices.map Device.lead = items.map fun item => item.key.sort) ∨
    ∃ place sort, Spoils (items.map fun item => item.key.sort) place sort ∧
      devicesOf table items = .error (.malformed table (.sortKey sort.length)) := by
  -- The items are read in their order, up to the first that is no device.
  induction items with
  | nil => exact .inl ⟨[], rfl, rfl⟩
  | cons item rest ih =>
    by_cases single : item.key.sort.length = 1
    · obtain ⟨id, sort⟩ := List.length_eq_one_iff.1 single
      have first : deviceOf table item.key.sort = .ok ⟨id⟩ := by rw [sort]; rfl
      rcases ih with ⟨devices, listed, leads⟩ | ⟨place, bad, spoils, failed⟩
      · refine .inl ⟨⟨id⟩ :: devices, by rw [devicesOf, first, listed]; rfl, ?_⟩
        rw [List.map_cons, List.map_cons, leads, sort]
        rfl
      · -- The first one of the rest is the first of all, since the item before it is a device.
        refine .inr ⟨place + 1, bad, ⟨spoils.here, spoils.bad, ?_⟩, by rw [devicesOf, first, failed]; rfl⟩
        intro earlier less other found
        cases earlier with
        | zero => exact Option.some.inj found ▸ single
        | succ earlier => exact spoils.first earlier (by omega) other found
    · -- The first item itself is no device.
      refine .inr ⟨0, item.key.sort, ⟨rfl, single, fun _ less => absurd less (Nat.not_lt_zero _)⟩, ?_⟩
      rw [devicesOf, deviceOf_of_length single]

namespace Slots

variable {κ : Type}

/-- How a listing ends that is asked for some devices, where the rows have the given sort keys. -/
inductive Lists (slots : Slots κ) (wanted : Option Nat) (sorts : List Bytes) : Listing → Prop where
  /-- As many as are wanted stand on pages without malformed rows. -/
  | enough {count : Nat} {devices : List Device} (wants : wanted = some count)
    (full : devices.length = count) (leads : devices.map Device.lead = sorts.take count)
    (clean : ∀ place sort, Spoils sorts place sort → count ≤ pageSize * (place / pageSize)) :
    Lists slots wanted sorts ⟨devices, .enough⟩
  /-- All rows are those of devices, and more devices were wanted. -/
  | exhausted {devices : List Device} (leads : devices.map Device.lead = sorts)
    (few : ∀ count, wanted = some count → devices.length < count) :
    Lists slots wanted sorts ⟨devices, .exhausted⟩
  /-- The pages before the first malformed row do not show enough devices. -/
  | failed {place : Nat} {sort : Bytes} {devices : List Device} (spoils : Spoils sorts place sort)
    (leads : devices.map Device.lead = sorts.take (pageSize * (place / pageSize)))
    (reached : ∀ count, wanted = some count → pageSize * (place / pageSize) < count) :
    Lists slots wanted sorts ⟨devices, .failed (.malformed slots.table (.sortKey sort.length))⟩

variable {slots : Slots κ} {wanted : Option Nat} {sorts : List Bytes} {listing : Listing}

/-- A listing that comes to a malformed row reports it. -/
theorem Lists.failure_of_spoils (lists : slots.Lists wanted sorts listing) {place : Nat} {sort : Bytes}
    (spoils : Spoils sorts place sort)
    (reached : ∀ count, wanted = some count → pageSize * (place / pageSize) < count) :
    listing.failure? = some (.malformed slots.table (.sortKey sort.length)) := by
  cases lists with
  | enough wants _ _ clean => exact absurd (clean _ _ spoils) (Nat.not_le.2 (reached _ wants))
  | exhausted leads _ =>
    -- Among the sort keys of devices alone there is no other.
    have late := spoils.not_before (leads.trans List.take_length.symm)
    exact absurd (List.getElem?_eq_none late ▸ spoils.here) nofun
  | failed spoils' => rw [(spoils.unique spoils').2]; rfl

/-- A listing that comes to no malformed row does not fail. -/
theorem Lists.failure_of_clean (lists : slots.Lists wanted sorts listing)
    (clean : ¬ ∃ place sort, Spoils sorts place sort ∧
      ∀ count, wanted = some count → pageSize * (place / pageSize) < count) :
    listing.failure? = none := by
  -- A listing fails only at a sort key that is no device.
  cases lists with
  | enough => rfl
  | exhausted => rfl
  | failed spoils _ reached => exact absurd ⟨_, _, spoils, reached⟩ clean

/-- Where a listing stands when it has read some full pages. -/
structure HasRead (slots : Slots κ) (engine : Engine) (identity : Identity) (wanted : Option Nat)
    (rows : Rows) (sorts : List Bytes) (pages : Nat) (place : ListingPlace) : Prop where
  leads : place.listed.map Device.lead = sorts.take (pageSize * pages)
  full : pageSize * pages ≤ sorts.length
  rest : (engine.found rows (slots.asked identity place.after)).map (fun row => row.key.sort) =
    sorts.drop (pageSize * pages)
  short : ∀ count, wanted = some count → pageSize * pages ≤ count

/-- What a round makes of a listing: it ends as it should, or has read another page. -/
inductive Proceeds (slots : Slots κ) (engine : Engine) (identity : Identity) (wanted : Option Nat)
    (rows : Rows) (sorts : List Bytes) (pages : Nat) : Progress ListingPlace Listing → Prop where
  | ended {listing : Listing} (lists : slots.Lists wanted sorts listing) :
    Proceeds slots engine identity wanted rows sorts pages (.finished listing)
  | goesOn {place : ListingPlace}
    (read : slots.HasRead engine identity wanted rows sorts (pages + 1) place) :
    Proceeds slots engine identity wanted rows sorts pages (.more place)

variable {engine : Engine} {identity : Identity} {rows : Rows} {pages : Nat} {place : ListingPlace}

/-- Enough have been listed exactly if no more are wanted. -/
theorem isEnough_iff {listed : List Device} :
    isEnough wanted listed ↔ ∃ count, wanted = some count ∧ count ≤ listed.length := by
  cases wanted <;> simp [isEnough]

/-- As many devices have been listed as stand on the pages that were read. -/
theorem HasRead.length_listed
    (read : slots.HasRead engine identity wanted rows sorts pages place) :
    place.listed.length = pageSize * pages := by
  have size := congrArg List.length read.leads
  rwa [List.length_map, List.length_take, Nat.min_eq_left read.full] at size

/-- A page that is asked for shows the sort keys that come next. -/
theorem HasRead.shown (read : slots.HasRead engine identity wanted rows sorts pages place) :
    (slots.pageAfter engine identity rows place.after).items.map (fun item => item.key.sort) =
      (sorts.drop (pageSize * pages)).take pageSize := by
  rw [pageAfter, Engine.page_items, List.map_take, List.map_map, ← read.rest]
  rfl

/-- Devices of whole pages among which there are as many as are wanted. -/
theorem lists_enough {listed : List Device} {count : Nat}
    (leads : listed.map Device.lead = sorts.take (pageSize * (pages + 1)))
    (many : count ≤ listed.length) :
    slots.Lists (some count) sorts ⟨handedOut (some count) listed, .enough⟩ := by
  -- The last page may show more devices than are wanted.
  have few : listed.length ≤ pageSize * (pages + 1) := by
    have size := congrArg List.length leads
    rw [List.length_map, List.length_take] at size
    omega
  refine .enough rfl (List.length_take_of_le many) ?_ fun index sort spoils => ?_
  · rw [handedOut, List.map_take, leads, List.take_take, Nat.min_eq_left (by omega)]
  · -- A malformed row stands on a later page.
    have late := spoils.not_on_pages leads
    omega

/-- A page that is followed by another has been read in full. -/
theorem HasRead.further (read : slots.HasRead engine identity wanted rows sorts pages place)
    {listed : List Device} (leads : listed.map Device.lead = sorts.take (pageSize * (pages + 1)))
    (few : ∀ count, wanted = some count → listed.length < count) {last : Bytes}
    (goesOn : (slots.pageAfter engine identity rows place.after).last = some last) :
    slots.HasRead engine identity wanted rows sorts (pages + 1) ⟨listed, some last⟩ := by
  -- A page with a last key is full, and more rows come after it.
  have size := congrArg List.length read.rest
  rw [List.length_map, List.length_drop] at size
  have more := Engine.page_partial goesOn
  rw [List.length_map] at more
  have next : engine.found rows (slots.asked identity (some last)) =
      (engine.found rows (slots.asked identity place.after)).drop pageSize :=
    @Engine.found_next engine rows (slots.asked identity place.after) last goesOn
  -- So many rows stand on the pages that were read.
  have full : pageSize * (pages + 1) ≤ sorts.length := by
    rw [Nat.mul_succ]
    omega
  have many := congrArg List.length leads
  rw [List.length_map, List.length_take, Nat.min_eq_left full] at many
  refine ⟨leads, full, ?_, fun count wants => ?_⟩
  · rw [next, List.map_drop, read.rest, List.drop_drop, Nat.mul_succ]
  · have less := few count wants
    omega

/-- A page that is followed by no other shows all that is left. -/
theorem HasRead.exhausted (read : slots.HasRead engine identity wanted rows sorts pages place)
    {listed : List Device} (leads : listed.map Device.lead = sorts.take (pageSize * (pages + 1)))
    (few : ∀ count, wanted = some count → listed.length < count)
    (ends : (slots.pageAfter engine identity rows place.after).last = none) :
    slots.Lists wanted sorts ⟨listed, .exhausted⟩ := by
  -- A page without a last key has come to the last row.
  have size := congrArg List.length read.rest
  rw [List.length_map, List.length_drop] at size
  have nothing := List.drop_eq_nil_iff.1 (Engine.page_complete (by decide) ends)
  rw [List.length_map] at nothing
  rw [List.take_of_length_le (by rw [Nat.mul_succ]; omega)] at leads
  exact .exhausted leads few

/-- A page with a malformed row lists nothing, and the row is the first of its kind. -/
theorem HasRead.spoilt (read : slots.HasRead engine identity wanted rows sorts pages place)
    (unmet : ∀ count, wanted = some count → pageSize * pages < count) {index : Nat} {sort : Bytes}
    (spoils : Spoils ((sorts.drop (pageSize * pages)).take pageSize) index sort) :
    slots.Lists wanted sorts
      ⟨place.listed, .failed (.malformed slots.table (.sortKey sort.length))⟩ := by
  -- The row stands on this page, and all pages before show devices.
  have early : index < pageSize := by
    have inside := (List.getElem?_eq_some_iff.1 spoils.here).1
    rw [List.length_take] at inside
    omega
  -- The number of the page is the place of the row, counted in pages.
  have page : (pageSize * pages + index) / pageSize = pages := by
    rw [Nat.mul_add_div (by decide), Nat.div_eq_of_lt early, Nat.add_zero]
  exact .failed (spoils.of_take.of_drop read.leads) (page.symm ▸ read.leads) (page.symm ▸ unmet)

/-- A listing that has not listed enough reads its next page. -/
theorem HasRead.page (read : slots.HasRead engine identity wanted rows sorts pages place)
    (more : ¬ isEnough wanted place.listed) :
    slots.Proceeds engine identity wanted rows sorts pages
      (slots.afterPage wanted place.listed (slots.pageAfter engine identity rows place.after)) := by
  -- The page shows devices, or it has a malformed row.
  have unmet : ∀ count, wanted = some count → pageSize * pages < count := by
    intro count wants
    refine Nat.lt_of_not_le fun met => more (isEnough_iff.2 ⟨count, wants, ?_⟩)
    rwa [read.length_listed]
  rcases devicesOf_cases slots.table (slots.pageAfter engine identity rows place.after).items with
    ⟨devices, listed, leads⟩ | ⟨index, sort, spoils, failed⟩
  · -- The page shows devices, which are listed behind the others.
    have all : (place.listed ++ devices).map Device.lead = sorts.take (pageSize * (pages + 1)) := by
      rw [List.map_append, read.leads, leads, read.shown, Nat.mul_succ, List.take_add]
    simp only [afterPage, listed]
    by_cases enough : isEnough wanted (place.listed ++ devices)
    · rw [if_pos enough]
      obtain ⟨count, rfl, many⟩ := isEnough_iff.1 enough
      exact .ended (lists_enough all many)
    · rw [if_neg enough]
      have few : ∀ count, wanted = some count → (place.listed ++ devices).length < count := by
        exact fun count wants =>
          Nat.lt_of_not_le fun met => enough (isEnough_iff.2 ⟨count, wants, met⟩)
      -- Without a last key there is no more to list.
      cases last : (slots.pageAfter engine identity rows place.after).last with
      | none => exact .ended (read.exhausted all few last)
      | some last' => exact .goesOn (read.further all few last)
  · simp only [afterPage, failed]
    exact .ended (read.spoilt unmet (read.shown ▸ spoils))

/-- From wherever it stands, a listing comes to its end. -/
theorem HasRead.runFrom (read : slots.HasRead engine identity wanted rows sorts pages place)
    {rounds : Nat} (enough : sorts.length < pageSize * pages + rounds) :
    ∃ listing, (slots.list identity wanted).runFrom rounds place (engine.holding rows) =
      (some listing, engine.holding rows) ∧ slots.Lists wanted sorts listing := by
  -- Each round reads a page, and there are no more pages than rows.
  induction rounds generalizing pages place with
  | zero =>
    have full := read.full
    omega
  | succ rounds ih =>
    have round : (slots.list identity wanted).round place = slots.listFrom identity wanted place := rfl
    rw [Walk.runFrom, round]
    by_cases met : isEnough wanted place.listed
    · -- Enough is listed, so nothing more is read.
      rw [listFrom, if_pos met]
      refine ⟨_, rfl, ?_⟩
      obtain ⟨count, rfl, many⟩ := isEnough_iff.1 met
      have length := read.length_listed
      -- No more were wanted than stand on the pages that were read.
      obtain rfl : pageSize * pages = count := by
        have short := read.short count rfl
        omega
      exact .enough rfl length read.leads fun _ _ spoils => spoils.not_on_pages read.leads
    · rw [listFrom_run engine slots identity rows met]
      have page := read.page met
      generalize slots.afterPage wanted place.listed
        (slots.pageAfter engine identity rows place.after) = progress at page
      cases page with
      | ended lists => exact ⟨_, rfl, lists⟩
      | goesOn further =>
        have positive : 0 < pageSize := by decide
        exact ih further (by rw [Nat.mul_succ]; omega)

/-- The sort keys of the rows of an identity, in ascending order. -/
def sortsOf (slots : Slots κ) (engine : Engine) (identity : Identity) (rows : Rows) : List Bytes :=
  (engine.range rows slots.table identity.partition []).map fun row => row.key.sort

/-- A listing of any rows comes to its end, and changes nothing. -/
theorem list_run (engine : Engine) (slots : Slots κ) (identity : Identity) (wanted : Option Nat)
    (rows : Rows) : ∃ listing,
      (slots.list identity wanted).run (engine.holding rows) = (some listing, engine.holding rows) ∧
      slots.Lists wanted (slots.sortsOf engine identity rows) listing := by
  have all : engine.found rows (slots.asked identity none) =
      engine.range rows slots.table identity.partition [] :=
    List.filter_eq_self.2 fun _ _ => rfl
  -- At first nothing is listed and everything is to be read.
  have start : slots.HasRead engine identity wanted rows (slots.sortsOf engine identity rows) 0
      (slots.list identity wanted).start := {
    leads := rfl
    full := Nat.zero_le _
    rest := congrArg (List.map fun row => row.key.sort) all
    short := fun _ _ => Nat.zero_le _ }
  -- There are no more rows of the identity than rows.
  have few : (slots.sortsOf engine identity rows).length ≤ rows.size := by
    rw [sortsOf, List.length_map]
    exact List.length_filter_le ..
  rw [Walk.run, Engine.rounds_holding]
  exact start.runFrom (by omega)

/-- A listing of all devices comes to its end, and changes nothing. -/
theorem devices_run (engine : Engine) (slots : Slots κ) (identity : Identity) (rows : Rows) :
    ∃ listing, (slots.devices identity).run (engine.holding rows) =
        (some (allOf listing), engine.holding rows) ∧
      slots.Lists none (slots.sortsOf engine identity rows) listing := by
  obtain ⟨listing, ran, lists⟩ := list_run engine slots identity none rows
  exact ⟨listing, Walk.runFrom_andThen ran, lists⟩

/-- All devices are answered exactly if the listing does not fail. -/
theorem failureOf?_allOf (listing : Listing) : failureOf? (allOf listing) = listing.failure? := by
  obtain ⟨devices, ending⟩ := listing
  cases ending <;> rfl

end Slots

end KeyDispensary
