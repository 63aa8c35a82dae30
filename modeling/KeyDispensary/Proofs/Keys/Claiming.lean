import KeyDispensary.Proofs.Keys.Records
import KeyDispensary.Proofs.Keys.Taking
import KeyDispensary.Proofs.Store.Recording
import KeyDispensary.Store.Probe

/-!
A take on any store, whatever it answers. Pages may be stale, foreign or empty, and only a removal that
finds a value gives a key. Main statement: `Pool.take_trusts_removals`.
-/

namespace KeyDispensary

/-! ### What a take asked and was told -/

/-- Where a call starts if it is a query; a query for all has no start. -/
def Call.start? : Call → Option (Option Bytes)
  | .query asked => some asked.after
  | _ => none

/-- The key that a call removes. -/
def Call.removed? : Call → Option Key
  | .delete _ key => some key
  | _ => none

namespace Exchange

/-- The page that a query was answered with. -/
def page? : Exchange → Option Page
  | ⟨.query _, reply⟩ => reply.toOption
  | _ => none

/-- The key of a removal that did not fail, and the value that it found. -/
def claim? : Exchange → Option (Key × Option Bytes)
  | ⟨.delete _ key, reply⟩ => reply.toOption.map fun found => (key, found)
  | _ => none

/-- What ends a take: a call that failed, or a removal that found a value. -/
def verdict? : Exchange → Option (Except StoreError Bytes)
  | ⟨.delete _ _, .ok found⟩ => found.map .ok
  | ⟨_, .ok _⟩ => none
  | ⟨_, .error error⟩ => some (.error error)

/-- A call that failed ends a take whatever was asked. -/
theorem verdict?_error {call : Call} {error : StoreError} :
    (Exchange.mk call (.error error)).verdict? = some (.error error) := by
  cases call <;> rfl

/-- A call that ends a take with a value is a removal that found it. -/
theorem eq_delete {exchange : Exchange} {value : Bytes}
    (settles : exchange.verdict? = some (.ok value)) :
    ∃ table key, exchange = ⟨.delete table key, .ok (some value)⟩ := by
  -- No other call that succeeds is a verdict.
  obtain ⟨call, reply⟩ := exchange
  cases reply with
  | error error => rw [verdict?_error] at settles; cases settles
  | ok answer =>
    cases call with
    | delete table key =>
      match answer with
      | none => cases settles
      | some found =>
        cases settles
        exact ⟨table, key, rfl⟩
    -- Calls of these kinds settle nothing when they succeed.
    | get | put | query | count | transact | replace => cases settles

/-- Whether a removal found a value. -/
def wins (exchange : Exchange) : Bool :=
  exchange.verdict?.any fun verdict => verdict.toBool

end Exchange

section Log
variable (log : List Exchange)

/-- The starts of the queries, in their order. -/
def startsIn : List (Option Bytes) :=
  log.filterMap fun exchange => exchange.call.start?

/-- The pages that were shown, in their order. -/
def pagesIn : List Page :=
  log.filterMap Exchange.page?

/-- The keys of the candidates on all pages, in their order. -/
def candidatesIn : List Key :=
  (pagesIn log).flatMap fun page => page.items.map Item.key

/-- The keys that removals were tried of, in their order. -/
def triedIn : List Key :=
  log.filterMap fun exchange => exchange.call.removed?

/-- The removals that did not fail, each with the value that it found. -/
def claimsIn : List (Key × Option Bytes) :=
  log.filterMap Exchange.claim?

end Log

namespace Pool

variable {σ κ : Type}

/-! ### Pages that are missed -/

/-- A removal that comes too late for a candidate. -/
def lost (pool : Pool κ) (candidate : Item) : Exchange :=
  ⟨.delete pool.table candidate.key, .ok none⟩

/-- Lost candidates settle nothing. -/
theorem quiet_lost (pool : Pool κ) (items : List Item) :
    ∀ exchange ∈ items.map pool.lost, exchange.verdict? = none := by
  intro exchange member
  obtain ⟨candidate, _, rfl⟩ := List.mem_map.1 member
  rfl

/-- The exchanges of a page whose candidates are all lost. -/
def missed (pool : Pool κ) (identity : Identity) (device : Device) (after : Option Bytes)
    (page : Page) : List Exchange :=
  ⟨.query (pool.asked identity device after), .ok page⟩ ::
    page.items.map pool.lost

/-- A page whose candidates are all lost settles nothing. -/
theorem quiet_missed (pool : Pool κ) (identity : Identity) (device : Device)
    (after : Option Bytes) (page : Page) :
    ∀ exchange ∈ pool.missed identity device after page, exchange.verdict? = none :=
  List.forall_mem_cons.2 ⟨rfl, quiet_lost pool page.items⟩

/-- What lost candidates add to what was read and tried. -/
theorem reads_lost (pool : Pool κ) (items : List Item) (later : List Exchange) :
    startsIn (items.map pool.lost ++ later) = startsIn later ∧
      pagesIn (items.map pool.lost ++ later) = pagesIn later ∧
      triedIn (items.map pool.lost ++ later) = items.map Item.key ++ triedIn later ∧
      claimsIn (items.map pool.lost ++ later) =
        (items.map fun item => (item.key, none)) ++ claimsIn later := by
  simp [startsIn, pagesIn, triedIn, claimsIn, List.filterMap_map, Function.comp_def, lost,
    Call.start?, Call.removed?, Exchange.page?, Exchange.claim?, Except.toOption]

/-- What a page whose candidates are all lost adds to what was read and tried. -/
theorem reads_missed (pool : Pool κ) (identity : Identity) (device : Device)
    (after : Option Bytes) (page : Page) (later : List Exchange) :
    let log := pool.missed identity device after page ++ later
    startsIn log = after :: startsIn later ∧ pagesIn log = page :: pagesIn later ∧
      triedIn log = page.items.map Item.key ++ triedIn later ∧
      claimsIn log = (page.items.map fun item => (item.key, none)) ++ claimsIn later := by
  -- The query adds its start and its page, and the rest is added by the candidates.
  obtain ⟨starts, pages, tried, claims⟩ := reads_lost pool page.items later
  exact ⟨congrArg (after :: ·) starts, congrArg (page :: ·) pages, tried, claims⟩

/-- What a take has read and tried, from a place on. -/
structure Reads (after : Option Bytes) (log : List Exchange) (answer : Except KeyError (Option κ)) :
    Prop where
  /-- Each query but the first starts where the page before it ended. -/
  starts : startsIn log <+: after :: (pagesIn log).map Page.last
  /-- The candidates are tried once each, in the order of the pages. -/
  tried : triedIn log <+: candidatesIn log
  /-- None is left out unless a call settles the take. -/
  all : (∀ exchange ∈ log, exchange.verdict? = none) → triedIn log = candidatesIn log
  /-- The pool is found empty exactly if all candidates were lost and the last page was the end. -/
  nothing : answer = .ok none ↔
    (claimsIn log = (candidatesIn log).map fun key => (key, none)) ∧
      ∃ page, (pagesIn log).getLast? = some page ∧ page.last = none

section Reads
variable {pool : Pool κ} {identity : Identity} {device : Device} {after : Option Bytes}
  {log : List Exchange} {answer : Except KeyError (Option κ)}

/-- A candidate whose removal settles a take was not lost. -/
theorem claim?_of_settles {key : Key} {reply : Reply (.delete pool.table key)}
    {verdict : Except StoreError Bytes}
    (settles : (Exchange.mk (.delete pool.table key) reply).verdict? = some verdict) :
    (Exchange.mk (.delete pool.table key) reply).claim? ≠ some (key, none) := by
  -- A removal that found nothing is the only claim of nothing, and it settles nothing.
  match reply with
  | .error error => nofun
  | .ok none => cases settles
  | .ok (some value) => nofun

/-- Where the removal of a candidate settles a take, not all candidates were lost. -/
theorem claimsIn_ne_lost {earlier : List Item} {candidate : Item}
    {reply : Reply (.delete pool.table candidate.key)} {verdict : Except StoreError Bytes}
    (settles : (Exchange.mk (.delete pool.table candidate.key) reply).verdict? = some verdict)
    (later : List Key) :
    claimsIn (earlier.map pool.lost ++ [⟨.delete pool.table candidate.key, reply⟩]) ≠
      (earlier.map Item.key ++ candidate.key :: later).map fun key => (key, none) := by
  -- The losses before the candidate are the same on both sides.
  intro same
  rw [(reads_lost pool earlier _).2.2.2, List.map_append, List.map_map] at same
  have rest := List.append_cancel_left same
  -- What is left are the claim of the candidate and, on the other side, its loss.
  cases found : (Exchange.mk (.delete pool.table candidate.key) reply).claim? with
  | none => simp [claimsIn, found] at rest
  | some claim =>
    simp only [claimsIn, List.filterMap_cons, found, List.filterMap_nil, List.map_cons] at rest
    rw [(List.cons.inj rest).1] at found
    exact claim?_of_settles settles found

/-- What is read and tried when the candidates of the last page are all lost. -/
theorem reads_ended {page : Page} (final : page.last = none) :
    Reads after (pool.missed identity device after page) (.ok none : Except KeyError (Option κ)) := by
  -- Nothing was read but the page, and nothing was tried but its candidates.
  obtain ⟨starts, pages, tried, claims⟩ := reads_missed pool identity device after page []
  rw [List.append_nil] at starts pages tried claims
  have candidates : candidatesIn (pool.missed identity device after page) =
      page.items.map Item.key := by
    rw [candidatesIn, pages]
    exact List.append_nil _
  -- Every candidate of the page was tried.
  have all : triedIn (pool.missed identity device after page) =
      candidatesIn (pool.missed identity device after page) := by
    rw [tried, candidates]
    exact List.append_nil _
  refine ⟨?_, all ▸ List.prefix_refl _, fun _ => all, iff_of_true rfl ⟨?_, page, ?_, final⟩⟩
  · rw [starts, pages]
    exact List.prefix_append [after] _
  · rw [claims, candidates, List.map_map]
    exact List.append_nil _
  · rw [pages]
    rfl

/-- What is read and tried after a page whose candidates are all lost. -/
theorem Reads.behind {page : Page} (further : page.last ≠ none) (reads : Reads page.last log answer) :
    Reads after (pool.missed identity device after page ++ log) answer := by
  obtain ⟨starts, pages, tried, claims⟩ := reads_missed pool identity device after page log
  -- The candidates of the page come before those that are shown later.
  have candidates : candidatesIn (pool.missed identity device after page ++ log) =
      page.items.map Item.key ++ candidatesIn log := by
    rw [candidatesIn, pages]
    rfl
  refine ⟨?_, ?_, fun quiet => ?_, ?_⟩
  · rw [starts, pages, List.map_cons]
    exact (List.prefix_cons_inj after).2 reads.starts
  · rw [tried, candidates]
    exact (List.prefix_append_right_inj _).2 reads.tried
  · rw [tried, candidates, reads.all fun exchange member => quiet exchange (List.mem_append_right _ member)]
  · -- The page is the last one only if nothing was shown after it, but then it was not the end.
    rw [reads.nothing, claims, candidates, List.map_append, List.map_map, pages]
    have same : ((page.items.map fun item => (item.key, (none : Option Bytes))) ++ claimsIn log =
        page.items.map ((fun key => (key, none)) ∘ Item.key) ++
          (candidatesIn log).map fun key => (key, none)) ↔
        claimsIn log = (candidatesIn log).map fun key => (key, none) := List.append_right_inj _
    rw [same]
    refine and_congr_right fun _ => ?_
    cases pagesIn log with
    | nil => simp [further]
    | cons next rest => simp

end Reads

/-! ### The course of a take -/

variable [Record κ]

/-- The answer of a take that has ended with a verdict. -/
def judged (pool : Pool κ) : Except StoreError Bytes → Except KeyError (Option κ)
  | .error error => .error (.store error)
  | .ok value => (recordOf κ pool.table value).map some

/-- The exchanges in which the candidates of a page are claimed, and what they come to. -/
inductive Claims (pool : Pool κ) (items : List Item) : Option Bytes → List Exchange → Taking κ → Prop
  where
  /-- All are lost, and no page follows. -/
  | ended : Claims pool items none (items.map pool.lost) (.finished (.ok none))
  /-- All are lost, and the next page starts where this one ended. -/
  | further (place : Bytes) : Claims pool items (some place) (items.map pool.lost) (.more place)
  /-- All before some candidate are lost, and then a removal fails or finds a value. -/
  | judged {last : Option Bytes} (earlier : List Item) {candidate : Item} {later : List Item}
    (split : items = earlier ++ candidate :: later)
    {reply : Reply (.delete pool.table candidate.key)} {verdict : Except StoreError Bytes}
    (settles : (Exchange.mk (.delete pool.table candidate.key) reply).verdict? = some verdict) :
    Claims pool items last
      (earlier.map pool.lost ++ [⟨.delete pool.table candidate.key, reply⟩])
      (.finished (pool.judged verdict))

/-- The exchanges of one round of a take, and what they come to. -/
inductive Round (pool : Pool κ) (identity : Identity) (device : Device) (after : Option Bytes) :
    List Exchange → Taking κ → Prop where
  /-- The query fails. -/
  | refused (error : StoreError) : Round pool identity device after
      [⟨.query (pool.asked identity device after), .error error⟩]
      (.finished (pool.judged (.error error)))
  /-- A page is shown, and its candidates are claimed. -/
  | shown {page : Page} {log : List Exchange} {progress : Taking κ}
    (claims : pool.Claims page.items page.last log progress) : Round pool identity device after
      (⟨.query (pool.asked identity device after), .ok page⟩ :: log) progress

/-- The exchanges of a take from a place on, and its answer. -/
inductive Course (pool : Pool κ) (identity : Identity) (device : Device) :
    Option Bytes → List Exchange → Except KeyError (Option κ) → Prop where
  | ends {after : Option Bytes} {log : List Exchange} {answer : Except KeyError (Option κ)}
    (round : pool.Round identity device after log (.finished answer)) :
    Course pool identity device after log answer
  /-- Another round starts at the place that the page gave. -/
  | further {after place : Option Bytes} {log later : List Exchange}
    {answer : Except KeyError (Option κ)}
    (round : pool.Round identity device after log (.more place))
    (rest : Course pool identity device place later answer) :
    Course pool identity device after (log ++ later) answer

/-- A candidate that is lost may stand before the others of a page. -/
theorem Claims.cons {pool : Pool κ} {items : List Item} {last : Option Bytes}
    {log : List Exchange} {progress : Taking κ} (claims : pool.Claims items last log progress)
    (candidate : Item) :
    pool.Claims (candidate :: items) last (pool.lost candidate :: log) progress := by
  -- Another lost candidate stands before those that were lost already.
  cases claims with
  | ended => exact .ended
  | further place => exact .further place
  | judged earlier split settles =>
    rw [split]
    exact .judged (candidate :: earlier) rfl settles

section Runs
variable [Store σ] {pool : Pool κ} {identity : Identity} {device : Device}

/-- The claims of a page take their course. -/
theorem claim_run (pool : Pool κ) (items : List Item) (last : Option Bytes) (store : σ)
    (log : List Exchange) : ∃ exchanges progress next,
      (pool.claim items last).run (Recorder.mk store log) = (progress, ⟨next, log ++ exchanges⟩) ∧
      pool.Claims items last exchanges progress := by
  -- The candidates are claimed one by one, and whatever settles the take ends the round.
  induction items generalizing store log with
  | nil =>
    cases last with
    | none => exact ⟨[], _, store, by rw [List.append_nil]; rfl, .ended⟩
    | some place => exact ⟨[], _, store, by rw [List.append_nil]; rfl, .further place⟩
  | cons candidate rest ih =>
    -- A removal that fails or finds a value is the last of the round.
    have settles (reply : Reply (.delete pool.table candidate.key)) (verdict : Except StoreError Bytes)
        (settles : (Exchange.mk (.delete pool.table candidate.key) reply).verdict? = some verdict) :
        pool.Claims (candidate :: rest) last [⟨.delete pool.table candidate.key, reply⟩]
          (.finished (pool.judged verdict)) := .judged [] rfl settles
    rw [claim, Recorder.run_ask]
    obtain ⟨reply, next⟩ := Store.perform store (.delete pool.table candidate.key)
    match reply with
    | .error error => exact ⟨_, _, next, rfl, settles _ (.error error) rfl⟩
    | .ok (some value) => exact ⟨_, _, next, rfl, settles _ (.ok value) rfl⟩
    | .ok none =>
      obtain ⟨exchanges, progress, final, ran, claims⟩ := ih next (log ++ [pool.lost candidate])
      refine ⟨[pool.lost candidate] ++ exchanges, progress, final, ?_, claims.cons candidate⟩
      rw [← List.append_assoc]
      exact ran

/-- The exchanges of a round take their course. -/
theorem takeFrom_run (pool : Pool κ) (identity : Identity) (device : Device) (after : Option Bytes)
    (store : σ) (log : List Exchange) : ∃ exchanges progress next,
      (pool.takeFrom identity device after).run (Recorder.mk store log) =
        (progress, ⟨next, log ++ exchanges⟩) ∧
      pool.Round identity device after exchanges progress := by
  -- If the query does not fail, what follows are the claims of its page.
  rw [takeFrom, Recorder.run_ask]
  obtain ⟨reply, next⟩ := Store.perform store
    (.query ⟨pool.table, identity.partition, device.lead, after, 1⟩)
  cases reply with
  | error error => exact ⟨_, _, next, rfl, .refused error⟩
  | ok page =>
    obtain ⟨exchanges, progress, final, ran, claims⟩ := pool.claim_run page.items page.last next _
    -- The query stands before the claims in the log.
    refine ⟨[_] ++ exchanges, progress, final, ?_, .shown claims⟩
    rw [← List.append_assoc]
    exact ran

/-- The exchanges of a take that ends take their course. -/
theorem course_of_runFrom (rounds : Nat) (after : Option Bytes) (store : σ) (log : List Exchange)
    {answer : Except KeyError (Option κ)} {next : Recorder σ}
    (ended : (pool.take identity device).runFrom rounds after (Recorder.mk store log) =
      (some answer, next)) :
    ∃ exchanges, next.log = log ++ exchanges ∧
      pool.Course identity device after exchanges answer := by
  -- Each round that does not end the take is followed by another one.
  induction rounds generalizing after store log with
  | zero => cases ended
  | succ rounds ih =>
    obtain ⟨exchanges, progress, middle, ran, round⟩ :=
      pool.takeFrom_run identity device after store log
    rw [Walk.runFrom, take, ran] at ended
    cases progress with
    -- The round has ended the take, and it is the last one.
    | finished answer' =>
      obtain ⟨same, rfl⟩ := Prod.mk.inj ended
      obtain rfl := Option.some.inj same
      exact ⟨exchanges, rfl, .ends round⟩
    | more place =>
      obtain ⟨later, logged, rest⟩ := ih place middle (log ++ exchanges) ended
      exact ⟨exchanges ++ later, by rw [logged, List.append_assoc], .further round rest⟩

end Runs

/-! ### What ends a take -/

section Ends
variable {pool : Pool κ} {identity : Identity} {device : Device} {after : Option Bytes}
  {items : List Item} {last : Option Bytes} {log : List Exchange} {progress : Taking κ}
  {answer : Except KeyError (Option κ)}

/-- How exchanges end a take: the last of them settles it, or none does. -/
inductive Verdict (pool : Pool κ) : List Exchange → Except KeyError (Option κ) → Prop where
  | judged {before : List Exchange} {last : Exchange} {verdict : Except StoreError Bytes}
    (quiet : ∀ exchange ∈ before, exchange.verdict? = none)
    (settles : last.verdict? = some verdict) :
    Verdict pool (before ++ [last]) (pool.judged verdict)
  | nothing {log : List Exchange} (quiet : ∀ exchange ∈ log, exchange.verdict? = none) :
    Verdict pool log (.ok none)

/-- A single call may settle a take. -/
theorem Verdict.single {last : Exchange} {verdict : Except StoreError Bytes}
    (settles : last.verdict? = some verdict) : pool.Verdict [last] (pool.judged verdict) := by
  have alone : pool.Verdict ([] ++ [last]) (pool.judged verdict) :=
    .judged (fun _ member => absurd member List.not_mem_nil) settles
  exact alone

/-- Exchanges that settle nothing may stand before others. -/
theorem Verdict.behind {earlier : List Exchange} (verdict : pool.Verdict log answer)
    (quiet : ∀ exchange ∈ earlier, exchange.verdict? = none) :
    pool.Verdict (earlier ++ log) answer := by
  -- What settles nothing may stand before the call that does.
  cases verdict with
  | judged quiet' settles =>
    rw [← List.append_assoc]
    exact .judged (List.forall_mem_append.2 ⟨quiet, quiet'⟩) settles
  | nothing quiet' => exact .nothing (List.forall_mem_append.2 ⟨quiet, quiet'⟩)

/-- A round goes on only after a page whose candidates are all lost, and from where the page ended. -/
theorem Round.of_more {place : Option Bytes}
    (round : pool.Round identity device after log (.more place)) :
    ∃ page, log = pool.missed identity device after page ∧ page.last = place ∧ place ≠ none := by
  -- A query that fails ends the take, and so does a candidate that settles it.
  cases round with
  | @shown page log _ claims =>
    obtain ⟨items, last⟩ := page
    cases claims with
    | further place => exact ⟨⟨items, some place⟩, rfl, rfl, Option.some_ne_none place⟩

/-- The claims of a page that end a take settle it, or nothing follows the page. -/
theorem Claims.verdict (claims : pool.Claims items last log (.finished answer)) :
    pool.Verdict log answer := by
  -- All claims but the last were lost.
  cases claims with
  | ended => exact .nothing (quiet_lost pool items)
  | judged earlier split settles => exact .judged (quiet_lost pool earlier) settles

/-- A take ends with the first call that settles it, or has settled nothing. -/
theorem Course.verdict (course : pool.Course identity device after log answer) :
    pool.Verdict log answer := by
  -- The rounds before the last one have settled nothing.
  induction course with
  | ends round =>
    cases round with
    | refused error => exact .single rfl
    | @shown page log _ claims =>
      -- The query has shown its page, so it is left to the claims.
      change pool.Verdict ([_] ++ log) _
      exact claims.verdict.behind (List.forall_mem_singleton.2 rfl)
  | further round rest ih =>
    obtain ⟨page, rfl, _⟩ := round.of_more
    exact ih.behind (quiet_missed pool identity device _ page)

/-! ### What a take reads and tries -/

/-- A verdict is no answer that there is nothing. -/
theorem judged_ne_nothing (pool : Pool κ) (verdict : Except StoreError Bytes) :
    pool.judged verdict ≠ .ok none := by
  -- A value is a key or malformed, and a failure is an error.
  cases verdict with
  | error error => nofun
  | ok value =>
    rw [judged]
    cases recordOf κ pool.table value <;> nofun

/-- What is read and tried when the take is settled at a candidate of a page. -/
theorem reads_judged {page : Page} {earlier later : List Item} {candidate : Item}
    (split : page.items = earlier ++ candidate :: later)
    {reply : Reply (.delete pool.table candidate.key)} {verdict : Except StoreError Bytes}
    (settles : (Exchange.mk (.delete pool.table candidate.key) reply).verdict? = some verdict) :
    Reads after (⟨.query (pool.asked identity device after), .ok page⟩ ::
      (earlier.map pool.lost ++ [⟨.delete pool.table candidate.key, reply⟩]))
      (pool.judged verdict) := by
  obtain ⟨starts, pages, tried, _⟩ :=
    reads_lost pool earlier [⟨.delete pool.table candidate.key, reply⟩]
  generalize logged : Exchange.mk (.query (pool.asked identity device after)) (.ok page) ::
    (earlier.map pool.lost ++ [⟨.delete pool.table candidate.key, reply⟩]) = log
  -- The take has made one query, and was shown one page.
  have starts : startsIn log = [after] := by
    rw [← logged]
    exact congrArg (after :: ·) starts
  have pages : pagesIn log = [page] := by
    rw [← logged]
    exact congrArg (page :: ·) pages
  have tried : triedIn log = earlier.map Item.key ++ [candidate.key] := by
    rw [← logged]
    exact tried
  -- The candidate that settles the take is one of the page.
  have candidates : candidatesIn log =
      earlier.map Item.key ++ candidate.key :: later.map Item.key := by
    rw [candidatesIn, pages, List.flatMap_singleton, split, List.map_append, List.map_cons]
  refine ⟨?_, ?_, fun quiet => ?_, iff_of_false (judged_ne_nothing pool verdict) ?_⟩
  · rw [starts, pages]
    exact List.prefix_append [after] _
  · rw [tried, candidates]
    exact ⟨later.map Item.key, by simp⟩
  · have last := quiet ⟨.delete pool.table candidate.key, reply⟩ (by simp [← logged])
    cases last.symm.trans settles
  · rintro ⟨same, _⟩
    -- The query claims nothing, so the candidate that settled the take would have been lost.
    rw [candidates, ← logged] at same
    exact claimsIn_ne_lost settles _ same

/-- A take has read and tried what its course tells. -/
theorem Course.reads (course : pool.Course identity device after log answer) :
    Reads after log answer := by
  -- All pages but the last one are missed, and each adds its start and its candidates.
  induction course with
  | ends round =>
    cases round with
    | refused error =>
      refine ⟨List.prefix_refl _, List.prefix_refl _, fun _ => rfl, iff_of_false nofun ?_⟩
      rintro ⟨_, page, shown, _⟩
      cases shown
    | @shown page log _ claims =>
      obtain ⟨items, last⟩ := page
      cases claims with
      | ended => exact reads_ended rfl
      | judged earlier split settles => exact reads_judged split settles
  | further round rest ih =>
    obtain ⟨page, rfl, rfl, further⟩ := round.of_more
    exact ih.behind further

/-! ### What a take answers -/

/-- The call that settles a take is its last call, and decides the answer. -/
theorem Verdict.of_split {before later : List Exchange} {exchange : Exchange}
    {settled : Except StoreError Bytes} (verdict : pool.Verdict log answer)
    (split : log = before ++ exchange :: later) (settles : exchange.verdict? = some settled) :
    later = [] ∧ answer = pool.judged settled := by
  cases verdict with
  | @judged earlier last decided quiet decides =>
    -- Whatever stands before the last call settles nothing.
    have others : ∀ other ∈ earlier, ¬ other.verdict? = some settled :=
      fun other member same => nomatch (quiet other member).symm.trans same
    obtain ⟨ends, _, rfl⟩ := last_of_split others split settles
    exact ⟨ends, congrArg pool.judged (Option.some.inj (decides.symm.trans settles))⟩
  | nothing quiet =>
    -- A take that nothing settled has no such call.
    have member : exchange ∈ log := split ▸ List.mem_append_right _ (.head _)
    cases (quiet exchange member).symm.trans settles

/-- At most one call settles a take. -/
theorem Verdict.once (verdict : pool.Verdict log answer) : log.countP Exchange.wins ≤ 1 := by
  -- Every call but the last one settles nothing.
  have none {log : List Exchange} (quiet : ∀ exchange ∈ log, exchange.verdict? = none) :
      log.countP Exchange.wins = 0 := by
    refine List.countP_eq_zero.2 fun exchange member => ?_
    rw [Exchange.wins, quiet exchange member]
    exact Bool.false_ne_true
  cases verdict with
  | judged quiet settles =>
    rw [List.countP_append, none quiet, Nat.zero_add]
    exact List.countP_le_length
  | nothing quiet =>
    rw [none quiet]
    exact Nat.zero_le 1

/-- A take that gives a key was settled by a removal that found the key. -/
theorem Verdict.given {record : κ} (verdict : pool.Verdict log (.ok (some record))) :
    ∃ before table key value, log = before ++ [⟨.delete table key, .ok (some value)⟩] ∧
      recordOf κ pool.table value = .ok record := by
  -- Neither a call that failed nor a take that nothing settled gives a key.
  generalize given : (.ok (some record) : Except KeyError (Option κ)) = answer at verdict
  cases verdict with
  | @judged before last decided quiet settles =>
    cases decided with
    | error error => cases given
    | ok value =>
      obtain ⟨table, key, rfl⟩ := last.eq_delete settles
      refine ⟨before, table, key, value, rfl, ?_⟩
      rw [Pool.judged] at given
      -- The value that was found is that of the key.
      cases decoded : recordOf κ pool.table value with
      | error error => rw [decoded] at given; cases given
      | ok found => rw [decoded] at given; cases given; rfl
  | nothing quiet => cases given

/-- What holds of the exchanges of a take that has ended with an answer. -/
structure TrustsRemovals (pool : Pool κ) (identity : Identity) (device : Device)
    (log : List Exchange) (answer : Except KeyError (Option κ)) : Prop
    extends Reads none log answer where
  /-- The candidates of a page are claimed before the next page is asked for. -/
  course : pool.Course identity device none log answer
  /-- At most one removal found a value. -/
  once : log.countP Exchange.wins ≤ 1
  /-- It was the last call, and the answer is what the value stands for that it found. -/
  won : ∀ (before : List Exchange) (table : String) (key : Key) (value : Bytes)
    (later : List Exchange), log = before ++ ⟨.delete table key, .ok (some value)⟩ :: later →
      later = [] ∧ answer = (recordOf κ pool.table value).map some
  /-- No key is given but by such a removal. -/
  given : ∀ record, answer = .ok (some record) → ∃ before table key value,
    log = before ++ [⟨.delete table key, .ok (some value)⟩] ∧
      recordOf κ pool.table value = .ok record
  /-- A call that failed was the last one, and its error is the answer. -/
  failed : ∀ (before : List Exchange) (call : Call) (error : StoreError) (later : List Exchange),
    log = before ++ ⟨call, .error error⟩ :: later → later = [] ∧ answer = .error (.store error)

/-- The course of a take tells what it may be trusted with. -/
theorem Course.trustsRemovals (course : pool.Course identity device none log answer) :
    pool.TrustsRemovals identity device log answer := by
  -- All parts are read off the course and its verdict.
  have verdict := course.verdict
  exact { course.reads with
    course := course
    once := verdict.once
    won := fun before table key value later split => verdict.of_split split rfl
    given := fun record given => (given ▸ verdict).given
    failed := fun before call error later split => verdict.of_split split (Exchange.verdict?_error) }

end Ends

/--
A take on any store whatever, whether it answers from its rows or not, that has ended with an answer.

Only the value that a removal found gives a key. All candidates of a page are tried in order before the
next page is asked for from where this one ended, until a removal finds a value or a call fails, and the
pool is found empty only behind the last page.
-/
theorem take_trusts_removals [Store σ] (pool : Pool κ) (identity : Identity) (device : Device)
    (store : σ) (rounds : Nat) (answer : Except KeyError (Option κ)) (next : Recorder σ)
    (ended : (pool.take identity device).runFrom rounds none (Recorder.mk store []) =
      (some answer, next)) :
    pool.TrustsRemovals identity device next.log answer := by
  -- The exchanges of the take begin with an empty log.
  obtain ⟨exchanges, logged, course⟩ := course_of_runFrom rounds none store [] ended
  rw [logged]
  exact course.trustsRemovals

/-- A take that is shown two keys that are gone, and then one whose value is not the one shown. -/
theorem take_trusts_removals_stale :
    let pool : Pool EcKey := ⟨"Keys"⟩
    let identity : Identity := ⟨List.replicate 16 0, rfl⟩
    let key : EcKey := ⟨3, [7]⟩
    let stored := Pool.item identity ⟨1⟩ key
    let store : Probe Memory :=
      { store := ⟨Rows.empty.putAll pool.table [stored]⟩
        faults := [⟨.query, none, 1, 1, .answer [([1, 1], []), ([1, 2], [])] (some [1, 2]), 0⟩,
          ⟨.query, none, 2, 2, .answer [(stored.key.sort, [9])] none, 0⟩]
        calls := [] }
    ∃ next, (pool.take identity ⟨1⟩).runFrom 2 none (Recorder.mk store []) =
        (some (.ok (some key)), next) ∧
      pool.TrustsRemovals identity ⟨1⟩ next.log (.ok (some key)) := by
  intro pool identity key stored store
  -- The probe answers two queries by what is not in the table, and passes on the removals.
  have ran : ((pool.take identity ⟨1⟩).runFrom 2 none (Recorder.mk store [])).1 =
      some (.ok (some key)) := by decide +kernel
  exact ⟨_, Prod.ext ran rfl, take_trusts_removals pool identity ⟨1⟩ store 2 _ _ (Prod.ext ran rfl)⟩

end Pool

end KeyDispensary
