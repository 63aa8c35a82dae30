import KeyDispensary.Proofs.Store.Paging
import KeyDispensary.Store.Program

/-!
Reading a range page by page. Whatever the length of the pages is, they show together what a single query
shows. Main statement: `Engine.pages_lossless`.
-/

namespace KeyDispensary

/-- Where reading page by page stands: the pages so far, and the sort key to go on after. -/
structure PagesPlace where
  read : List Page
  after : Option Bytes

/-- How reading goes on with a page: from its last key, or not at all if it has none. -/
def PagesPlace.goOn (place : PagesPlace) (page : Page) :
    Progress PagesPlace (Except StoreError (List Page)) :=
  match page.last with
  | none => .finished (.ok (place.read ++ [page]))
  | some last => .more ⟨place.read ++ [page], some last⟩

namespace Query

/-- Asks for the page after a place. -/
def pageFrom (query : Query) (place : PagesPlace) :
    Program (Progress PagesPlace (Except StoreError (List Page))) :=
  .ask (.query { query with after := place.after }) fun
    | .error error => .done (.finished (.error error))
    | .ok page => .done (place.goOn page)

/-- Asks for one page after another, each from the last key of the one before, until a page has none. -/
def pages (query : Query) : Walk PagesPlace (Except StoreError (List Page)) where
  start := ⟨[], query.after⟩
  round := query.pageFrom

/-- Whether a row is one that a query asks for, as far as its limit allows. -/
def Matches (query : Query) (row : Row) : Prop :=
  row.begins query.table query.partition query.lead ∧ Memory.isPast query.after row.key.sort

end Query

/-! ### Lists that are cut into pages -/

/-- Whether pages cut a list of items into parts of a length, of which the last may be shorter. -/
inductive CutInto (limit : Nat) : List Item → List Page → Prop where
  | final {items : List Item} (few : items.length ≤ limit) : CutInto limit items [⟨items, none⟩]
  | page {items : List Item} {item : Item} {pages : List Page} (many : limit < items.length)
    (shown : (items.take limit).getLast? = some item) (rest : CutInto limit (items.drop limit) pages) :
    CutInto limit items (⟨items.take limit, some item.key.sort⟩ :: pages)

namespace CutInto

variable {limit : Nat} {items : List Item} {pages : List Page}

/-- The pages show all items in their order. -/
theorem flatMap_items (cut : CutInto limit items pages) : pages.flatMap Page.items = items := by
  -- Each page shows what the next ones leave out.
  induction cut with
  | final => exact List.append_nil _
  | page _ _ _ ih => rw [List.flatMap_cons, ih, List.take_append_drop]

/-- All pages but the last are full and have a last key. -/
theorem full (cut : CutInto limit items pages) : ∃ before final, pages = before ++ [final] ∧
    final.last = none ∧ final.items.length ≤ limit ∧
    ∀ page ∈ before, page.items.length = limit ∧ page.last.isSome := by
  -- The induction is on the pages, and each one that is followed by others was cut from more items than fit.
  induction cut with
  | final few => exact ⟨[], _, rfl, rfl, few, fun _ member => absurd member List.not_mem_nil⟩
  | page many _ _ ih =>
    obtain ⟨before, final, rfl, ends, short, full⟩ := ih
    refine ⟨_ :: before, final, rfl, ends, short, fun page member => ?_⟩
    rcases List.mem_cons.1 member with rfl | later
    · exact ⟨List.length_take_of_le (Nat.le_of_lt many), rfl⟩
    · exact full page later

/-- The items of a page are among those that were cut. -/
theorem subset (cut : CutInto limit items pages) {page : Page} (member : page ∈ pages) :
    page.items ⊆ items := by
  intro item shown
  rw [← cut.flatMap_items]
  exact List.mem_flatMap.2 ⟨page, member, shown⟩

/-- No item comes after the last of items in ascending order. -/
theorem not_lt_of_getLast? (ascending : items.Pairwise fun a b => a.key.sort < b.key.sort)
    {final item : Item} (last : items.getLast? = some final) (member : item ∈ items) :
    ¬ final.key.sort < item.key.sort := by
  -- All others stand before the last item.
  obtain ⟨others, rfl⟩ := List.getLast?_eq_some_iff.1 last
  rcases List.mem_append.1 member with before | same
  · exact List.lt_asymm ((List.pairwise_append.1 ascending).2.2 item before final List.mem_cons_self)
  · exact List.mem_singleton.1 same ▸ List.lt_irrefl _

/-- A page has a last key exactly if an item comes after those that it shows. -/
theorem last_eq_some_iff (cut : CutInto limit items pages)
    (ascending : items.Pairwise fun a b => a.key.sort < b.key.sort) {page : Page}
    (member : page ∈ pages) (last : Bytes) :
    page.last = some last ↔ ∃ item, page.items.getLast? = some item ∧ item.key.sort = last ∧
      ∃ later ∈ items, last < later.key.sort := by
  induction cut with
  | final few =>
    obtain rfl := List.mem_singleton.1 member
    -- The last page has no last key, and no item comes after those that it shows.
    refine iff_of_false (fun same => nomatch same) ?_
    rintro ⟨item, final, rfl, later, inside, less⟩
    exact not_lt_of_getLast? ascending final inside less
  | @page items item pages many shown rest ih =>
    -- All that the first page shows comes before what is left for the others.
    have split := ascending
    rw [← List.take_append_drop limit items] at split
    obtain ⟨_, tail, before⟩ := List.pairwise_append.1 split
    rcases List.mem_cons.1 member with rfl | later
    · constructor
      · intro same
        -- The item after the page is the first that it leaves out.
        have left : items[limit] ∈ items.drop limit :=
          List.mem_drop_iff_getElem.2 ⟨0, by simpa using many, by simp⟩
        exact ⟨item, shown, Option.some.inj same, items[limit], List.getElem_mem many,
          Option.some.inj same ▸ before item (List.mem_of_getLast? shown) _ left⟩
      · rintro ⟨other, shown', rfl, _⟩
        exact congrArg (some ·.key.sort) (Option.some.inj (shown.symm.trans shown'))
    · rw [ih tail later]
      refine exists_congr fun other => and_congr_right fun final => and_congr_right fun same => ?_
      subst same
      have inside := rest.subset later (List.mem_of_getLast? final)
      -- What the first page shows comes before all items of the others.
      constructor
      · rintro ⟨next, left, less⟩
        exact ⟨next, List.mem_of_mem_drop left, less⟩
      · rintro ⟨next, listed, less⟩
        rw [← List.take_append_drop limit items] at listed
        rcases List.mem_append.1 listed with early | left
        · exact absurd less (List.lt_asymm (before next early other inside))
        · exact ⟨next, left, less⟩

end CutInto

/-- A database that can be asked for no more rows than a signed word counts answers the same page. -/
theorem Database.lookUp_of_capped (rows : Rows) (query : Query) (few : rows.size < 9223372036854775807) :
    page query.limit (((rows.toList.filter (answers query)).take
      (min (query.limit + 1) 9223372036854775807)).map Row.item) = lookUp rows query := by
  -- Where the cap counts, all rows are fetched with it and without it.
  have short : (rows.toList.filter (answers query)).length < 9223372036854775807 :=
    Nat.lt_of_le_of_lt (List.length_filter_le ..) few
  rw [lookUp]
  rcases Nat.le_total (query.limit + 1) 9223372036854775807 with below | above
  · rw [Nat.min_eq_left below]
  · rw [Nat.min_eq_right above, List.take_of_length_le (by omega), List.take_of_length_le (by omega)]

namespace Engine

variable {engine : Engine} {rows : Rows} {query : Query}

/-- A round of reading page by page goes on with the page after its place. -/
theorem pageFrom_run (engine : Engine) (rows : Rows) (query : Query) (place : PagesPlace) :
    (query.pageFrom place).run (engine.holding rows) =
      (place.goOn (Memory.page query.limit
        ((engine.found rows { query with after := place.after }).map Row.item)),
          engine.holding rows) := by
  -- A round makes one query and goes on with its page.
  rw [Query.pageFrom, Program.run, perform_holding]
  rfl

/-- Going on from a place, reading page by page cuts what is found after the place into pages. -/
theorem runFrom_pages (engine : Engine) (rows : Rows) (positive : 0 < query.limit) {rounds : Nat}
    {place : PagesPlace}
    (enough : (engine.found rows { query with after := place.after }).length < rounds) :
    ∃ pages, query.pages.runFrom rounds place (engine.holding rows) =
        (some (.ok (place.read ++ pages)), engine.holding rows) ∧
      CutInto query.limit ((engine.found rows { query with after := place.after }).map Row.item)
        pages := by
  -- Each round finds less than the one before, as long as there is a round to follow.
  induction rounds generalizing place with
  | zero => cases enough
  | succ rounds ih =>
    have round := pageFrom_run engine rows query place
    by_cases few : ((engine.found rows { query with after := place.after }).map Row.item).length ≤
        query.limit
    · -- Everything fits on a page, which is the last one.
      rw [page_of_few few] at round
      exact ⟨_, by rw [Walk.runFrom, Query.pages, round]; rfl, .final few⟩
    · have many := Nat.lt_of_not_le few
      obtain ⟨item, shown, page⟩ := page_of_many positive many
      have next : engine.found rows { query with after := some item.key.sort } =
          (engine.found rows { query with after := place.after }).drop query.limit :=
        @found_next engine rows { query with after := place.after } _ (congrArg Page.last page)
      rw [page] at round
      rw [List.length_map] at many
      -- The rest is cut from the last key of the page on.
      obtain ⟨pages, ran, cut⟩ := @ih ⟨place.read ++ [_], some item.key.sort⟩
        (by rw [next, List.length_drop]; omega)
      rw [next, List.map_drop] at cut
      refine ⟨_, ?_, .page (by rwa [List.length_map]) shown cut⟩
      rw [Walk.runFrom, Query.pages, round]
      exact ran.trans (by rw [List.append_assoc]; rfl)

/-- What pages that are read one after another show of a query. -/
structure Lossless (engine : Engine) (rows : Rows) (query : Query) (pages : List Page) : Prop where
  /-- Every page but the last is full, and only the last has no last key. -/
  full : ∃ before final, pages = before ++ [final] ∧ final.last = none ∧
    final.items.length ≤ query.limit ∧
    ∀ page ∈ before, page.items.length = query.limit ∧ page.last.isSome
  /-- A last key is that of the last item, and is there exactly if a later row is asked for. -/
  further : ∀ page ∈ pages, ∀ last, page.last = some last ↔
    ∃ item, page.items.getLast? = some item ∧ item.key.sort = last ∧
      ∃ row ∈ rows.toList, query.Matches row ∧ last < row.key.sort
  /-- A single query for everything answers the items of all pages, if it may show so many rows. -/
  together : rows.size ≤ Query.unlimited →
    Store.perform (engine.holding rows) (.query { query with limit := Query.unlimited }) =
      (.ok ⟨pages.flatMap Page.items, none⟩, engine.holding rows)
  /-- The items come in ascending order, each once. -/
  ascending : (pages.flatMap Page.items).Pairwise fun a b => a.key.sort < b.key.sort
  /-- They are those of the rows that are asked for; a database leaves out one without a sort key. -/
  complete : ∀ item, item ∈ pages.flatMap Page.items ↔ ∃ row ∈ rows.toList,
    query.Matches row ∧ (engine = .database → row.key.sort ≠ []) ∧ row.item = item

/-- A query finds the rows that it asks for; in a database it passes over one without a sort key. -/
theorem mem_found {row : Row} : row ∈ engine.found rows query ↔
    row ∈ rows.toList ∧ query.Matches row ∧ (engine = .database → row.key.sort ≠ []) := by
  cases engine <;> simp [found, range, covers, Query.Matches, and_left_comm, and_comm]

/--
Reading a query page by page ends, and the pages show together what a single query for everything shows,
whatever the limit of a page is, wherever the query starts, and whatever the rows are.
-/
theorem pages_lossless (engine : Engine) (rows : Rows) (query : Query) (positive : 1 ≤ query.limit) :
    ∃ pages, query.pages.run (engine.holding rows) = (some (.ok pages), engine.holding rows) ∧
      Lossless engine rows query pages := by
  -- The rounds of the walk suffice, as a page shows at least one row.
  have most : (engine.found rows query).length ≤ rows.size :=
    Nat.le_trans (List.length_filter_le ..) (List.length_filter_le ..)
  obtain ⟨pages, ran, cut⟩ := @runFrom_pages query engine rows positive (rows.size + 1)
    ⟨[], query.after⟩ (Nat.lt_succ_of_le most)
  have ascending : ((engine.found rows query).map Row.item).Pairwise
      fun a b => a.key.sort < b.key.sort :=
    List.pairwise_map.2 (found_ascending engine rows query)
  -- What the pages show follows from how they were cut.
  refine ⟨pages, by rw [Walk.run, rounds_holding]; exact ran, ?_⟩
  exact {
    full := cut.full
    further := fun page member last => by
      rw [cut.last_eq_some_iff ascending member]
      refine exists_congr fun item => and_congr_right fun _ => and_congr_right fun _ => ?_
      constructor
      · rintro ⟨later, found, less⟩
        obtain ⟨row, listed, rfl⟩ := List.mem_map.1 found
        obtain ⟨present, asked, _⟩ := mem_found.1 listed
        exact ⟨row, present, asked, less⟩
      · rintro ⟨row, present, asked, less⟩
        -- A sort key that comes after another is not empty.
        have sorted : row.key.sort ≠ [] := fun none => List.not_lt_nil last (none ▸ less)
        exact ⟨row.item, List.mem_map.2 ⟨row, mem_found.2 ⟨present, asked, fun _ => sorted⟩, rfl⟩, less⟩
    together := fun few => by
      have fits : ((engine.found rows query).map Row.item).length ≤ Query.unlimited := by
        rw [List.length_map]
        exact Nat.le_trans most few
      have page := page_of_few fits
      rw [perform_holding, cut.flatMap_items, ← page]
      rfl
    ascending := cut.flatMap_items.symm ▸ ascending
    complete := fun item => by
      rw [cut.flatMap_items, List.mem_map]
      simp only [mem_found, and_assoc] }

/-- Four rows of a range are read from a database in two full pages, though it holds an unsorted row. -/
theorem pages_lossless_even :
    let rows := Rows.empty.putAll "keys"
      [⟨⟨[1], []⟩, [0]⟩, ⟨⟨[1], [2]⟩, [1]⟩, ⟨⟨[1], [2, 255]⟩, [2]⟩, ⟨⟨[1], [255]⟩, [3]⟩,
        ⟨⟨[1], [255, 0]⟩, [4]⟩, ⟨⟨[1, 2], [3]⟩, [5]⟩]
    let query : Query := ⟨"keys", [1], [], some [1, 255], 2⟩
    (1 ≤ query.limit ∧ rows.size ≤ Query.unlimited) ∧
    Lossless .database rows query
      [⟨[⟨⟨[1], [2]⟩, [1]⟩, ⟨⟨[1], [2, 255]⟩, [2]⟩], some [2, 255]⟩,
        ⟨[⟨⟨[1], [255]⟩, [3]⟩, ⟨⟨[1], [255, 0]⟩, [4]⟩], none⟩] := by
  intro rows query
  refine ⟨⟨by decide, by decide⟩, ?_⟩
  obtain ⟨pages, ran, lossless⟩ := pages_lossless .database rows query (by decide)
  -- What was read is what the walk computes.
  have read : (query.pages.run (Engine.database.holding rows)).1 = some (.ok
      [⟨[⟨⟨[1], [2]⟩, [1]⟩, ⟨⟨[1], [2, 255]⟩, [2]⟩], some [2, 255]⟩,
        ⟨[⟨⟨[1], [255]⟩, [3]⟩, ⟨⟨[1], [255, 0]⟩, [4]⟩], none⟩]) := by
    rfl
  rw [ran] at read
  obtain rfl := Except.ok.inj (Option.some.inj read)
  exact lossless

end Engine

end KeyDispensary
