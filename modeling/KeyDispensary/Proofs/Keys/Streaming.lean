import KeyDispensary.Proofs.Admin.Commands
import KeyDispensary.Proofs.Keys.Listings
import KeyDispensary.Proofs.Store.PageWalks
import KeyDispensary.Proofs.Store.Recording
import KeyDispensary.Proofs.Store.Transactions

/-!
Listing devices page by page: which pages are asked for, and what each of them adds. A page with a sort
key that is no device adds nothing and ends the listing. Main statement: `Slots.streams_by_page`.
-/

namespace KeyDispensary

/-! ### What a page shows -/

namespace Page

variable {table : String} {page : Page}

/-- The devices of the sort keys that are devices. -/
def devices (page : Page) : List Device :=
  page.items.filterMap fun item =>
    match item.key.sort with
    | [id] => some ⟨id⟩
    | _ => none

/-- What is wrong with a page: its first sort key that is no device, by its length. -/
def fault? (table : String) (page : Page) : Option KeyError :=
  (page.items.find? fun item => item.key.sort.length ≠ 1).map fun item =>
    .malformed table (.sortKey item.key.sort.length)

/-- A page whose first sort key is a device has the faults of the others. -/
theorem fault?_cons (table : String) {item : Item} {id : UInt8} (single : item.key.sort = [id])
    (rest : List Item) (last : Option Bytes) :
    fault? table ⟨item :: rest, last⟩ = fault? table ⟨rest, last⟩ ∧
      devices ⟨item :: rest, last⟩ = ⟨id⟩ :: devices ⟨rest, last⟩ := by
  simp [fault?, devices, single]

/-- A page whose first sort key is no device has that as its fault. -/
theorem fault?_of_head {item : Item} (refused : item.key.sort.length ≠ 1) (rest : List Item)
    (last : Option Bytes) : fault? table ⟨item :: rest, last⟩ =
      some (.malformed table (.sortKey item.key.sort.length)) := by
  simp [fault?, refused]

/-- A page shows its devices unless something is wrong with it. -/
theorem devicesOf_items (table : String) (page : Page) : devicesOf table page.items =
    match page.fault? table with
    | none => .ok page.devices
    | some error => .error error := by
  obtain ⟨items, last⟩ := page
  -- The items are read in their order, up to the first that is no device.
  induction items with
  | nil => rfl
  | cons item rest ih =>
    by_cases single : item.key.sort.length = 1
    · obtain ⟨id, sort⟩ := List.length_eq_one_iff.1 single
      obtain ⟨faults, shown⟩ := fault?_cons table sort rest last
      rw [devicesOf, faults, shown, ih, sort]
      cases fault? table ⟨rest, last⟩ <;> rfl
    · -- The first item is what is wrong with the page.
      rw [devicesOf, fault?_of_head single, deviceOf_of_length single]

/-- The devices of a page with which nothing is wrong have the sort keys of its items. -/
theorem leads_devices (clean : page.fault? table = none) :
    page.devices.map Device.lead = page.items.map fun item => item.key.sort := by
  obtain ⟨items, last⟩ := page
  -- An item with another sort key would be what is wrong with the page.
  induction items with
  | nil => rfl
  | cons item rest ih =>
    by_cases single : item.key.sort.length = 1
    · obtain ⟨id, sort⟩ := List.length_eq_one_iff.1 single
      obtain ⟨faults, shown⟩ := fault?_cons table sort rest last
      rw [shown, List.map_cons, List.map_cons, ih (faults ▸ clean), sort]
      rfl
    · cases (fault?_of_head single rest last).symm.trans clean

/-- A page with which nothing is wrong shows a device for each item. -/
theorem length_devices (clean : page.fault? table = none) :
    page.devices.length = page.items.length := by
  -- The lists of sort keys are equally long.
  have sizes := congrArg List.length (leads_devices clean)
  rwa [List.length_map, List.length_map] at sizes

end Page

/-! ### Stores that show rows -/

/-- Whether a store answers queries from the given rows as an engine does, and stays as it is. -/
structure Shows {σ : Type} [Store σ] (engine : Engine) (rows : Rows) (store : σ) : Prop where
  query : ∀ query : Query, Store.perform store (.query query) =
    (.ok (Memory.page query.limit ((engine.found rows query).map Row.item)), store)
  rounds : rows.size < Store.rounds store

/-- An engine that holds rows shows them. -/
theorem Shows.holding (engine : Engine) (rows : Rows) :
    Shows engine rows (engine.holding rows) where
  query query := Engine.perform_holding engine rows (.query query)
  rounds := by
    rw [Engine.rounds_holding]
    exact Nat.lt_succ_self _

/-- An open database with a table shows its rows, also if it may only be read. -/
theorem Shows.opened {opened : OpenDatabase} {rows : Rows}
    (table : opened.database.table = some rows) : Shows .database rows opened := by
  obtain ⟨⟨version, _⟩, place, journal, access⟩ := opened
  obtain rfl := table
  refine ⟨fun query => ?_, Nat.lt_succ_self rows.size⟩
  -- A query does not write, so it is answered whatever the access is.
  change OpenDatabase.perform _ _ = _
  simp only [OpenDatabase.perform, Database.perform, Database.performOn_eq, Call.writes,
    Bool.false_eq_true, and_false, if_false]
  rfl

/-! ### What pages show one after another -/

namespace Slots

variable {σ κ : Type}

/-- The pages before the first with which something is wrong. -/
def cleanPages (slots : Slots κ) (pages : List Page) : List Page :=
  pages.takeWhile fun page => (page.fault? slots.table).isNone

/-- The first page with which something is wrong. -/
def faultyPage? (slots : Slots κ) (pages : List Page) : Option Page :=
  pages.find? fun page => (page.fault? slots.table).isSome

/-- The devices of the pages before the first with which something is wrong. -/
def streamed (slots : Slots κ) (pages : List Page) : List Device :=
  (slots.cleanPages pages).flatMap Page.devices

/-- What is wrong with the first page with which something is wrong. -/
def fault? (slots : Slots κ) (pages : List Page) : Option KeyError :=
  (slots.faultyPage? pages).bind (Page.fault? slots.table)

/-- How a listing of all devices ends that reads the given pages. -/
def ending (slots : Slots κ) (pages : List Page) : Ending :=
  match slots.fault? pages with
  | none => .exhausted
  | some error => .failed error

/-- The pages before the first with which something is wrong, and that one. -/
def needed (slots : Slots κ) (pages : List Page) : List Page :=
  slots.cleanPages pages ++ (slots.faultyPage? pages).toList

/-- The exchanges in which pages are read one after another, from a place on. -/
def readings (slots : Slots κ) (identity : Identity) : Option Bytes → List Page → List Exchange
  | _, [] => []
  | after, page :: rest =>
    ⟨.query (slots.asked identity after), .ok page⟩ :: slots.readings identity page.last rest

section Lists
variable {slots : Slots κ} {page : Page} {rest pages : List Page} {error : KeyError}

/-- A page with which nothing is wrong adds its devices and is needed. -/
theorem cons_of_clean (clean : page.fault? slots.table = none) (rest : List Page) :
    slots.streamed (page :: rest) = page.devices ++ slots.streamed rest ∧
      slots.ending (page :: rest) = slots.ending rest ∧
      slots.needed (page :: rest) = page :: slots.needed rest := by
  simp [streamed, ending, fault?, faultyPage?, needed, cleanPages, clean]

/-- A page with which something is wrong adds nothing and is the last one needed. -/
theorem cons_of_fault (fault : page.fault? slots.table = some error) (rest : List Page) :
    slots.streamed (page :: rest) = [] ∧ slots.ending (page :: rest) = .failed error ∧
      slots.needed (page :: rest) = [page] := by
  simp [streamed, ending, fault?, faultyPage?, needed, cleanPages, fault]

/-- The devices that are streamed have the sort keys of the items on their pages. -/
theorem leads_streamed (slots : Slots κ) (pages : List Page) :
    (slots.streamed pages).map Device.lead =
      (slots.cleanPages pages).flatMap fun page => page.items.map fun item => item.key.sort := by
  -- Pages are added as long as nothing is wrong with them.
  induction pages with
  | nil => rfl
  | cons page rest ih =>
    cases fault : page.fault? slots.table with
    | none =>
      rw [(cons_of_clean fault rest).1, List.map_append, ih, Page.leads_devices fault]
      simp [cleanPages, fault]
    | some error => simp [streamed, cleanPages, fault]

/-- Pages with nothing wrong are all needed; others are needed up to the first. -/
theorem length_needed (slots : Slots κ) (pages : List Page) :
    (slots.needed pages).length =
      if (slots.fault? pages).isSome then (slots.cleanPages pages).length + 1 else pages.length := by
  -- A page with nothing wrong counts on both sides, and the first other one ends the count.
  induction pages with
  | nil => rfl
  | cons page rest ih =>
    cases fault : page.fault? slots.table with
    | none =>
      have same : slots.fault? (page :: rest) = slots.fault? rest := by
        simp [fault?, faultyPage?, fault]
      have others : slots.cleanPages (page :: rest) = page :: slots.cleanPages rest := by
        simp [cleanPages, fault]
      rw [(cons_of_clean fault rest).2.2, List.length_cons, ih, same, others]
      split <;> rfl
    | some error => simp [(cons_of_fault fault rest).2.2, fault?, faultyPage?, cleanPages, fault]

/-- Pages that are not too long stream no more devices than they have room for. -/
theorem length_streamed_le (few : ∀ page ∈ pages, page.items.length ≤ pageSize) :
    (slots.streamed pages).length ≤ pageSize * pages.length := by
  -- Each page shows a device for each of its items, or ends the stream.
  induction pages with
  | nil => exact Nat.zero_le _
  | cons page rest ih =>
    cases fault : page.fault? slots.table with
    | none =>
      -- This page shows no more than it has room for, and neither do the others.
      have most := few page List.mem_cons_self
      have others := ih fun page member => few page (List.mem_cons_of_mem _ member)
      rw [(cons_of_clean fault rest).1, List.length_append, Page.length_devices fault,
        List.length_cons, Nat.mul_succ]
      omega
    | some error =>
      rw [(cons_of_fault fault rest).1]
      exact Nat.zero_le _

/-- Each page is read in one exchange. -/
theorem length_readings (slots : Slots κ) (identity : Identity) (after : Option Bytes)
    (pages : List Page) : (slots.readings identity after pages).length = pages.length := by
  induction pages generalizing after with
  | nil => rfl
  | cons page rest ih => exact congrArg Nat.succ (ih _)

end Lists

/-! ### Pages in the order in which they are read -/

/-- Whether pages are those that are read one after another, from a place on. -/
inductive PagesFrom (slots : Slots κ) (engine : Engine) (identity : Identity) (rows : Rows) :
    Option Bytes → List Page → Prop where
  /-- The last page has no last key. -/
  | final {after : Option Bytes} {page : Page}
    (shown : slots.pageAfter engine identity rows after = page) (ends : page.last = none)
    (few : page.items.length ≤ pageSize) : PagesFrom slots engine identity rows after [page]
  /-- All others are full, and the next page comes after the last key. -/
  | further {after : Option Bytes} {page : Page} {last : Bytes} {pages : List Page}
    (shown : slots.pageAfter engine identity rows after = page) (goesOn : page.last = some last)
    (full : page.items.length = pageSize)
    (rest : PagesFrom slots engine identity rows (some last) pages) :
    PagesFrom slots engine identity rows after (page :: pages)

section Pages
variable {slots : Slots κ} {engine : Engine} {identity : Identity} {rows : Rows}
  {after : Option Bytes} {pages : List Page}

/-- Pages that cut what is found after a place are those that are read from the place on. -/
theorem PagesFrom.of_cut {items : List Item} (cut : CutInto pageSize items pages)
    (found : (engine.found rows (slots.asked identity after)).map Row.item = items) :
    slots.PagesFrom engine identity rows after pages := by
  -- The cuts are followed, each with the place from which its page is read.
  induction cut generalizing after with
  | @final items few =>
    -- All that is left fits on the last page.
    refine .final ?_ rfl few
    rw [pageAfter, found, Engine.page_of_few few]
  | @page items item pages many shown rest ih =>
    obtain ⟨item', shown', page⟩ := Engine.page_of_many (by decide) many
    obtain rfl := Option.some.inj (shown.symm.trans shown')
    have read : slots.pageAfter engine identity rows after =
        ⟨items.take pageSize, some item.key.sort⟩ := by
      rw [pageAfter, found, page]
    -- A query from the last key of the page finds what the page left out.
    have next : engine.found rows (slots.asked identity (some item.key.sort)) =
        (engine.found rows (slots.asked identity after)).drop pageSize :=
      @Engine.found_next engine rows (slots.asked identity after) _ (congrArg Page.last read)
    refine .further read rfl (List.length_take_of_le (Nat.le_of_lt many)) (ih ?_)
    rw [next, List.map_drop, found]

/-- No page is longer than others. -/
theorem PagesFrom.few (read : slots.PagesFrom engine identity rows after pages) :
    ∀ page ∈ pages, page.items.length ≤ pageSize := by
  -- Every page but the last is full.
  intro page member
  induction read with
  | final _ _ few => exact List.mem_singleton.1 member ▸ few
  | further _ _ full _ ih =>
    rcases List.mem_cons.1 member with rfl | later
    · exact Nat.le_of_eq full
    · exact ih later

end Pages

/-! ### Reading the pages -/

section Runs
variable [Store σ] {slots : Slots κ} {engine : Engine} {identity : Identity} {rows : Rows}
  {store : σ} {wanted : Option Nat} {after : Option Bytes} {listed : List Device}
  {pages : List Page} {page : Page} {error : KeyError} {count : Nat}

/-- A listing of fewer devices than are wanted is not enough. -/
theorem not_isEnough (few : ∀ count, wanted = some count → listed.length < count) :
    ¬ isEnough wanted listed := by
  rw [isEnough_iff]
  rintro ⟨count, wants, many⟩
  exact absurd (few count wants) (Nat.not_lt.2 many)

/-- If some devices are fewer than are wanted, so are the first of them. -/
theorem fewer_of_append {others : List Device}
    (few : ∀ count, wanted = some count → (listed ++ others).length < count) :
    ∀ count, wanted = some count → listed.length < count := by
  intro count wants
  have less := few count wants
  rw [List.length_append] at less
  omega

/-- A round of a listing reads the page after its place, and goes on as the page says. -/
theorem runFrom_succ (shows : Shows engine rows store)
    (few : ∀ count, wanted = some count → listed.length < count)
    (shown : slots.pageAfter engine identity rows after = page) (rounds : Nat) (log : List Exchange) :
    (slots.list identity wanted).runFrom (rounds + 1) ⟨listed, after⟩ (Recorder.mk store log) =
      match slots.afterPage wanted listed page with
      | .finished listing =>
        (some listing, ⟨store, log ++ [⟨.query (slots.asked identity after), .ok page⟩]⟩)
      | .more place => (slots.list identity wanted).runFrom rounds place
        ⟨store, log ++ [⟨.query (slots.asked identity after), .ok page⟩]⟩ := by
  -- The round makes one call, and the page that it shows decides how to go on.
  have round : ((slots.list identity wanted).round ⟨listed, after⟩).run (Recorder.mk store log) =
      (slots.afterPage wanted listed page,
        ⟨store, log ++ [⟨.query (slots.asked identity after), .ok page⟩]⟩) := by
    -- The store is asked for the page and stays as it is.
    have answered : Store.perform store (.query ⟨slots.table, identity.partition, [], after, pageSize⟩) =
        (.ok page, store) := by
      rw [shows.query, ← shown]
      rfl
    change (slots.listFrom identity wanted ⟨listed, after⟩).run (Recorder.mk store log) = _
    rw [listFrom, if_neg (not_isEnough few), Recorder.run_ask]
    simp only [answered]
    rfl
  rw [Walk.runFrom, round]
  cases slots.afterPage wanted listed page <;> rfl

/-- What a page with which nothing is wrong makes of a listing. -/
theorem afterPage_of_clean (clean : page.fault? slots.table = none) :
    slots.afterPage wanted listed page =
      if isEnough wanted (listed ++ page.devices) then
        .finished ⟨handedOut wanted (listed ++ page.devices), .enough⟩
      else
        match page.last with
        | none => .finished ⟨listed ++ page.devices, .exhausted⟩
        | some last => .more ⟨listed ++ page.devices, some last⟩ := by
  cases last : page.last <;> simp only [afterPage, Page.devicesOf_items, clean, last]

/-- A listing ends at a page with which something is wrong, and the pages behind it are not read. -/
theorem runFrom_of_fault (shows : Shows engine rows store)
    (few : ∀ count, wanted = some count → (listed ++ slots.streamed (page :: pages)).length < count)
    (shown : slots.pageAfter engine identity rows after = page)
    (fault : page.fault? slots.table = some error) (rounds : Nat) (log : List Exchange) :
    (slots.list identity wanted).runFrom (rounds + 1) ⟨listed, after⟩ (Recorder.mk store log) =
      (some ⟨listed ++ slots.streamed (page :: pages), slots.ending (page :: pages)⟩,
        ⟨store, log ++ slots.readings identity after (slots.needed (page :: pages))⟩) := by
  -- Nothing of the page is added to what was listed before.
  obtain ⟨streamed, ending, needed⟩ := cons_of_fault fault pages
  rw [streamed, List.append_nil] at few ⊢
  have ends : slots.afterPage wanted listed page = .finished ⟨listed, .failed error⟩ := by
    simp only [afterPage, Page.devicesOf_items, fault]
  rw [runFrom_succ shows few shown, ends, ending, needed]
  rfl

/-- A listing ends at a page with which nothing is wrong and that shows as many devices as are wanted. -/
theorem runFrom_of_enough (shows : Shows engine rows store) (fewer : listed.length < count)
    (shown : slots.pageAfter engine identity rows after = page)
    (clean : page.fault? slots.table = none) (few : page.items.length ≤ pageSize)
    (many : count ≤ (listed ++ page.devices).length) (rounds : Nat) (log : List Exchange) :
    (slots.list identity (some count)).runFrom (rounds + 1) ⟨listed, after⟩ (Recorder.mk store log) =
      (some ⟨(listed ++ slots.streamed (page :: pages)).take count, .enough⟩,
        ⟨store, log ++ slots.readings identity after
          ((page :: pages).take ((count - listed.length + 15) / 16))⟩) := by
  -- At least one device is wanted, and at most as many as the page shows.
  have one : (count - listed.length + 15) / 16 = 1 := by
    rw [List.length_append, Page.length_devices clean] at many
    have most : page.items.length ≤ 16 := few
    omega
  -- What later pages show is not among the first.
  have first : (listed ++ slots.streamed (page :: pages)).take count =
      (listed ++ page.devices).take count := by
    rw [(cons_of_clean clean pages).1, ← List.append_assoc, List.take_append_of_le_length many]
  rw [runFrom_succ shows (fun _ wants => Option.some.inj wants ▸ fewer) shown,
    afterPage_of_clean clean, if_pos (isEnough_iff.2 ⟨count, rfl, many⟩), one, first]
  rfl

/-- A listing that wants more than a page shows, with which nothing is wrong, goes on behind it. -/
theorem runFrom_of_further (shows : Shows engine rows store)
    (few : ∀ count, wanted = some count → (listed ++ page.devices).length < count)
    (shown : slots.pageAfter engine identity rows after = page)
    (clean : page.fault? slots.table = none) {last : Bytes} (goesOn : page.last = some last)
    (rounds : Nat) (log : List Exchange) :
    (slots.list identity wanted).runFrom (rounds + 1) ⟨listed, after⟩ (Recorder.mk store log) =
      (slots.list identity wanted).runFrom rounds ⟨listed ++ page.devices, some last⟩
        ⟨store, log ++ [⟨.query (slots.asked identity after), .ok page⟩]⟩ := by
  rw [runFrom_succ shows (fewer_of_append few) shown, afterPage_of_clean clean,
    if_neg (not_isEnough few), goesOn]

/-- A listing that wants more than the pages show reads all that are needed. -/
theorem PagesFrom.runFrom_all (read : slots.PagesFrom engine identity rows after pages)
    (shows : Shows engine rows store) {rounds : Nat} (enough : pages.length ≤ rounds)
    (few : ∀ count, wanted = some count → (listed ++ slots.streamed pages).length < count)
    (log : List Exchange) :
    (slots.list identity wanted).runFrom rounds ⟨listed, after⟩ (Recorder.mk store log) =
      (some ⟨listed ++ slots.streamed pages, slots.ending pages⟩,
        ⟨store, log ++ slots.readings identity after (slots.needed pages)⟩) := by
  -- The pages are read in their order, up to the first with which something is wrong.
  induction read generalizing listed rounds log with
  | @final after page shown ends =>
    obtain ⟨rounds, rfl⟩ := Nat.exists_eq_add_of_le' enough
    cases fault : page.fault? slots.table with
    | some error => exact runFrom_of_fault shows few shown fault rounds log
    | none =>
      obtain ⟨streamed, ending, needed⟩ := cons_of_clean fault []
      -- The last page has no last key, so there is nothing more to read.
      have all : slots.streamed [page] = page.devices := streamed.trans (List.append_nil _)
      rw [all] at few ⊢
      rw [List.length_singleton, runFrom_succ shows (fewer_of_append few) shown,
        afterPage_of_clean fault, if_neg (not_isEnough few), ends, ending, needed]
      rfl
  | @further after page last pages shown goesOn full rest ih =>
    obtain ⟨rounds, rfl⟩ := Nat.exists_eq_add_of_le' (Nat.le_trans (Nat.le_add_left 1 _) enough)
    cases fault : page.fault? slots.table with
    | some error => exact runFrom_of_fault shows few shown fault rounds log
    | none =>
      obtain ⟨streamed, ending, needed⟩ := cons_of_clean fault pages
      -- The devices of this page are listed before those of the others.
      rw [streamed, ← List.append_assoc] at few ⊢
      rw [runFrom_of_further shows (fewer_of_append few) shown fault goesOn, ending, needed,
        ih (Nat.le_of_succ_le_succ enough) few, readings, goesOn, List.append_assoc log]
      rfl

/-- A listing that wants no more than the pages show reads a page for each sixteen devices begun. -/
theorem PagesFrom.runFrom_some (read : slots.PagesFrom engine identity rows after pages)
    (shows : Shows engine rows store) {rounds : Nat} (enough : pages.length ≤ rounds)
    (more : listed.length < count) (many : count ≤ (listed ++ slots.streamed pages).length)
    (log : List Exchange) :
    (slots.list identity (some count)).runFrom rounds ⟨listed, after⟩ (Recorder.mk store log) =
      (some ⟨(listed ++ slots.streamed pages).take count, .enough⟩,
        ⟨store, log ++ slots.readings identity after
          (pages.take ((count - listed.length + 15) / 16))⟩) := by
  -- The pages are read in their order, up to the one on which the last wanted device stands.
  induction read generalizing listed rounds log with
  | @final after page shown ends few =>
    obtain ⟨rounds, rfl⟩ := Nat.exists_eq_add_of_le' enough
    cases fault : page.fault? slots.table with
    | some error =>
      -- A page with something wrong streams nothing, and more was wanted.
      rw [(cons_of_fault fault []).1, List.append_nil] at many
      exact absurd more (Nat.not_lt.2 many)
    | none =>
      have all : slots.streamed [page] = page.devices :=
        (cons_of_clean fault []).1.trans (List.append_nil _)
      exact runFrom_of_enough shows more shown fault few (all ▸ many) rounds log
  | @further after page last pages shown goesOn full rest ih =>
    obtain ⟨rounds, rfl⟩ := Nat.exists_eq_add_of_le' (Nat.le_trans (Nat.le_add_left 1 _) enough)
    cases fault : page.fault? slots.table with
    | some error =>
      rw [(cons_of_fault fault pages).1, List.append_nil] at many
      exact absurd more (Nat.not_lt.2 many)
    | none =>
      by_cases here : count ≤ (listed ++ page.devices).length
      · exact runFrom_of_enough shows more shown fault (Nat.le_of_eq full) here rounds log
      · have fewer := Nat.lt_of_not_le here
        have sixteen : page.devices.length = 16 := (Page.length_devices fault).trans full
        -- The page is full, so sixteen devices fewer are wanted behind it.
        have pieces : (count - listed.length + 15) / 16 =
            (count - (listed ++ page.devices).length + 15) / 16 + 1 := by
          rw [List.length_append] at fewer ⊢
          omega
        rw [(cons_of_clean fault pages).1, ← List.append_assoc] at many ⊢
        rw [runFrom_of_further shows (fun _ wants => Option.some.inj wants ▸ fewer) shown fault goesOn,
          ih (Nat.le_of_succ_le_succ enough) fewer many, pieces, List.take_succ_cons, readings,
          goesOn, List.append_assoc log]
        rfl

end Runs

/-! ### Streams -/

section Streams
variable {slots : Slots κ} {engine : Engine} {identity : Identity} {rows : Rows} {pages : List Page}

/-- There is a page for each sixteen items begun, and one if there are no items. -/
theorem length_of_cut {items : List Item} (cut : CutInto pageSize items pages) :
    pages.length = max 1 ((items.length + 15) / 16) := by
  -- Each cut but the last takes sixteen items away.
  induction cut with
  | @final items few =>
    have most : items.length ≤ 16 := few
    rw [List.length_singleton]
    omega
  | @page items _ pages many _ _ ih =>
    have more : 16 < items.length := many
    have left : (items.drop pageSize).length = items.length - 16 := List.length_drop
    rw [List.length_cons, ih, left]
    omega

/-- How the devices of an identity are streamed from an engine that holds rows, page by page. -/
structure Streams (slots : Slots κ) (engine : Engine) (identity : Identity) (rows : Rows)
    (pages : List Page) : Prop where
  /-- The pages cut what is listed without a limit. -/
  cut : CutInto pageSize (listing (engine.holding rows) slots.table identity.partition []) pages
  /-- There is a page for each sixteen items begun, and one if there are no items. -/
  number : pages.length =
    max 1 (((listing (engine.holding rows) slots.table identity.partition []).length + 15) / 16)
  /-- The devices that are streamed have the sort keys of the items on the pages before a fault. -/
  leads : (slots.streamed pages).map Device.lead =
    (slots.cleanPages pages).flatMap fun page => page.items.map fun item => item.key.sort
  /-- The pages up to the first with a fault are needed, or all. -/
  cost : (slots.needed pages).length =
    if (slots.fault? pages).isSome then (slots.cleanPages pages).length + 1 else pages.length
  /-- Whatever was read before, a stream that is not left early reads the pages that are needed. -/
  whole : ∀ wanted, (∀ count, wanted = some count → (slots.streamed pages).length < count) →
    ∀ earlier, (slots.list identity wanted).run (Recorder.mk (engine.holding rows) earlier) =
      (some ⟨slots.streamed pages, slots.ending pages⟩,
        ⟨engine.holding rows, earlier ++ slots.readings identity none (slots.needed pages)⟩)
  /-- The first devices cost a page for each sixteen begun. -/
  first : ∀ count ≤ (slots.streamed pages).length, ∀ earlier, ∃ exchanges,
    (slots.list identity (some count)).run (Recorder.mk (engine.holding rows) earlier) =
      (some ⟨(slots.streamed pages).take count, .enough⟩,
        ⟨engine.holding rows, earlier ++ exchanges⟩) ∧
    exchanges = slots.readings identity none (pages.take ((count + 15) / 16)) ∧
    exchanges.length = (count + 15) / 16
  /-- All devices are answered if no page has a fault, and else the fault. -/
  together : (slots.devices identity).run (engine.holding rows) =
    (some (match slots.fault? pages with
      | none => .ok (slots.streamed pages)
      | some error => .error error), engine.holding rows)

/-- A listing of all devices of a store that shows rows leaves it as it is. -/
theorem PagesFrom.list_run [Store σ] {store : σ} (read : slots.PagesFrom engine identity rows none pages)
    (shows : Shows engine rows store) (enough : pages.length ≤ Store.rounds store) :
    (slots.list identity none).run store =
      (some ⟨slots.streamed pages, slots.ending pages⟩, store) := by
  obtain ⟨later, recorded⟩ := Recorder.runFrom_walk (slots.list identity none) (Store.rounds store)
    ⟨[], none⟩ store []
  -- Recording its calls shows what it answers and leaves.
  rw [read.runFrom_all shows enough (by nofun) []] at recorded
  obtain ⟨answers, leaves⟩ := Prod.mk.inj recorded
  exact Prod.ext answers.symm (Recorder.mk.inj leaves).1.symm

/-- There are no more pages than rounds that a store allows which shows the rows. -/
theorem length_le_rounds [Store σ] {store : σ} (shows : Shows engine rows store)
    (cut : CutInto pageSize ((engine.range rows slots.table identity.partition []).map Row.item) pages) :
    pages.length ≤ Store.rounds store := by
  -- The items are among the rows, and the store allows more rounds than it has rows.
  have number := length_of_cut cut
  have some : (engine.range rows slots.table identity.partition []).length ≤ rows.size :=
    List.length_filter_le ..
  have rounds := shows.rounds
  rw [List.length_map] at number
  omega

/-- Pages that cut the range of an identity are those that a stream of its devices reads. -/
theorem streams_of_cut (cut : CutInto pageSize
      ((engine.range rows slots.table identity.partition []).map Row.item) pages)
    (read : slots.PagesFrom engine identity rows none pages) :
    slots.Streams engine identity rows pages := by
  -- An engine shows the rows that it holds, and allows enough rounds to read them all.
  have shows := Shows.holding engine rows
  have enough := length_le_rounds shows cut
  have listed := engine.listing_holding rows slots.table identity.partition []
  exact {
    cut := listed ▸ cut
    number := listed ▸ length_of_cut cut
    leads := slots.leads_streamed pages
    cost := slots.length_needed pages
    whole := fun wanted few earlier => read.runFrom_all shows enough few earlier
    first := fun count many earlier => by
      -- As many pages as that are there, since each shows sixteen devices at most.
      have size : (pages.take ((count + 15) / 16)).length = (count + 15) / 16 := by
        have room : (slots.streamed pages).length ≤ 16 * pages.length := length_streamed_le read.few
        rw [List.length_take]
        omega
      refine ⟨_, ?_, rfl, (slots.length_readings identity none _).trans size⟩
      rcases Nat.eq_zero_or_pos count with rfl | positive
      · -- Nothing is read for no device.
        change (slots.list identity (some 0)).runFrom (Store.rounds (engine.holding rows)) _ _ = _
        rw [Engine.rounds_holding]
        simp only [Nat.reduceAdd, Nat.reduceDiv, List.take_zero, readings, List.append_nil]
        rfl
      · exact read.runFrom_some shows enough positive many earlier
    together := by
      refine (Walk.runFrom_andThen (read.list_run shows enough)).trans ?_
      simp only [allOf, ending]
      cases slots.fault? pages <;> rfl }

/-- The command that lists devices answers the stream of a database that it has opened. -/
theorem PagesFrom.command (read : slots.PagesFrom .database identity rows none pages)
    {opened : OpenDatabase} (table : opened.database.table = some rows)
    (enough : pages.length ≤ Store.rounds opened) (config : Config) {dispensary : Dispensary}
    (same : dispensary.tables.lastResort = slots.table) :
    Admin.carryOut config dispensary opened (.pqDevices identity) =
      (Admin.listed (some ⟨slots.streamed pages, slots.ending pages⟩), opened) := by
  have walks : dispensary.lastResort.list identity none = slots.list identity none := by
    -- A listing depends on the table alone, whatever the keys are.
    have rounds : dispensary.lastResort.listFrom identity none = slots.listFrom identity none := by
      obtain ⟨table⟩ := slots
      obtain rfl := same
      funext place
      rw [listFrom, listFrom, if_neg (by simp [isEnough]), if_neg (by simp [isEnough])]
      refine congrArg (Program.ask _) (funext fun reply => ?_)
      cases reply <;> rfl
    exact congrArg (Walk.mk ⟨[], none⟩) rounds
  rw [Admin.carryOut, walks, read.list_run (Shows.opened table) enough]

/--
The devices of an identity are streamed page by page: those on the pages before the first with a sort key
that is no device, and then what is wrong with that page. They are read no further than they are wanted,
all together they are answered only if nothing is wrong, and the command line prints those before, each by
the decimal digits of its id on a line of its own.
-/
theorem streams_by_page (engine : Engine) (slots : Slots κ) (identity : Identity) (rows : Rows) :
    ∃ pages, slots.Streams engine identity rows pages ∧
      (engine = .database → ∀ (arguments : List String) (disk : Disk) (invocation : Admin.Invocation)
        (config : Config) (dispensary : Dispensary) (opened : OpenDatabase),
        Admin.Reaches arguments disk invocation config dispensary opened →
        invocation.command = .pqDevices identity → dispensary.tables.lastResort = slots.table →
        opened.database.table = some rows →
        let lines := String.ofList ((slots.streamed pages).flatMap fun device =>
          Nat.toDigits 10 device.id.toNat ++ ['\n'])
        Admin.run arguments disk =
          (match slots.fault? pages with
            | none => ⟨0, lines, ""⟩
            | some error => ⟨1, lines, "Error: " ++ error.message ++ "\n"⟩,
            opened.keptOn disk)) := by
  -- A query from the start finds the whole range.
  have all : engine.found rows (slots.asked identity none) =
      engine.range rows slots.table identity.partition [] :=
    List.filter_eq_self.2 fun _ _ => rfl
  have positive : 0 < (slots.asked identity none).limit := by simp [asked, pageSize]
  -- Reading page by page cuts what is found into pages.
  obtain ⟨pages, _, cut⟩ := @Engine.runFrom_pages (slots.asked identity none) engine rows positive
    (rows.size + 1) ⟨[], none⟩ (Nat.lt_succ_of_le
      (Nat.le_trans (List.length_filter_le ..) (List.length_filter_le ..)))
  have read : slots.PagesFrom engine identity rows none pages := .of_cut cut rfl
  change CutInto pageSize ((engine.found rows (slots.asked identity none)).map Row.item) pages at cut
  rw [all] at cut
  refine ⟨pages, streams_of_cut cut read, ?_⟩
  rintro rfl arguments disk ⟨database, path, command⟩ config dispensary opened reaches rfl same table
  -- The command runs the same listing on the database that it has opened.
  have enough := length_le_rounds (Shows.opened table) cut
  rw [reaches.run nofun, read.command table enough config same, OpenDatabase.keptOn_keptOn,
    ← Admin.deviceLines_eq]
  simp only [ending]
  -- The lines are printed in both cases, and behind them what is wrong, if anything is.
  cases slots.fault? pages <;> rfl

/-- Of seventeen devices the first page is printed, since the second has a sort key of two bytes. -/
theorem streams_by_page_spoilt :
    let identity : Identity := ⟨List.replicate 16 0, rfl⟩
    let slots : Slots SignedKemKey := ⟨"PqLastResortKeys"⟩
    let sorts := (List.range 17).map (fun id => [UInt8.ofNat id]) ++ [[16, 0]]
    let rows := Rows.empty.putAll slots.table (sorts.map fun sort => ⟨⟨identity.partition, sort⟩, []⟩)
    let opened : OpenDatabase := ⟨⟨1, some rows⟩, some [Bytes.ofText "keys.db"], .ahead, .make⟩
    let disk := opened.keptOn ⟨[], [], none⟩
    let arguments := ["--db", "keys.db", "pq-devices", "00000000000000000000000000000000"]
    let shown := (List.range 16).map fun id => Device.mk (UInt8.ofNat id)
    Admin.Reaches arguments disk ⟨"keys.db", none, .pqDevices identity⟩ {} ⟨{}⟩ opened ∧
    (∃ pages, slots.Streams .database identity rows pages ∧ slots.streamed pages = shown ∧
      (slots.needed pages).length = 2) ∧
    Admin.run arguments disk = (⟨1, "0\n1\n2\n3\n4\n5\n6\n7\n8\n9\n10\n11\n12\n13\n14\n15\n",
      "Error: malformed item in PqLastResortKeys: expected 1-byte sort key, got 2 bytes\n"⟩, disk) := by
  intro identity slots sorts rows opened disk arguments shown
  have opens : OpenDatabase.ofName disk "keys.db" = .ok opened := by
    clear_value rows
    with_unfolding_all rfl
  have reaches : Admin.Reaches arguments disk ⟨"keys.db", none, .pqDevices identity⟩ {} ⟨{}⟩ opened :=
    ⟨by decide +kernel, rfl, opens, rfl⟩
  obtain ⟨pages, streams, prints⟩ := streams_by_page .database slots identity rows
  have ran := prints rfl arguments disk _ {} ⟨{}⟩ opened reaches rfl rfl rfl
  -- What the pages show is what the walk computes.
  have computed :
      let ran := (slots.list identity none).run (Recorder.mk (Engine.database.holding rows) [])
      (ran.1, ran.2.log.length) =
        (some ⟨shown, .failed (.malformed "PqLastResortKeys" (.sortKey 2))⟩, 2) := by decide +kernel
  simp only [streams.whole none (by nofun) [], List.nil_append, length_readings] at computed
  obtain ⟨listed, needed⟩ := Prod.mk.inj computed
  obtain ⟨streamed, ending⟩ := Listing.mk.inj (Option.some.inj listed)
  have fault : slots.fault? pages = some (.malformed "PqLastResortKeys" (.sortKey 2)) := by
    rw [Slots.ending] at ending
    cases fault : slots.fault? pages with
    | none => rw [fault] at ending; cases ending
    | some error => rw [fault] at ending; exact congrArg some (Ending.failed.inj ending)
  rw [fault, streamed, OpenDatabase.keptOn_keptOn] at ran
  -- What the command prints is spelled out.
  have lines : String.ofList (shown.flatMap fun device => Nat.toDigits 10 device.id.toNat ++ ['\n']) =
      "0\n1\n2\n3\n4\n5\n6\n7\n8\n9\n10\n11\n12\n13\n14\n15\n" := by decide +kernel
  have said : "Error: " ++ (KeyError.malformed "PqLastResortKeys" (.sortKey 2)).message ++ "\n" =
      "Error: malformed item in PqLastResortKeys: expected 1-byte sort key, got 2 bytes\n" := by
    decide +kernel
  simp only [lines, said] at ran
  exact ⟨reaches, ⟨pages, streams, streamed, needed⟩, ran⟩

end Streams

end Slots

end KeyDispensary
