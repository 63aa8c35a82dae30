import KeyDispensary.Json.Struct
import Mathlib.Data.List.Infix

/-!
What is left of a text behind a value is an end of that text. So an object that is read is closed within
its text. Main statement: `Json.Shape.closed_of_read`.
-/

namespace KeyDispensary.Json

variable {α δ : Type}

/-- Whether a reader leaves an end of every text that it reads from. -/
def LeavesEnd (read : Reader α) : Prop :=
  ∀ ⦃text value rest⦄, read text = .ok (value, rest) → rest <:+ text

/-- Whether what passes over something leaves an end of every text. -/
def PassesToEnd (pass : Bytes → Except Fault Bytes) : Prop :=
  ∀ ⦃text rest⦄, pass text = .ok rest → rest <:+ text

/-- What was changed had been read before. -/
theorem exists_of_map {ε β : Type} {result : Except ε α} {change : α → β} {changed : β}
    (passed : result.map change = .ok changed) : ∃ value, result = .ok value ∧ change value = changed := by
  -- A fault is not changed into a value.
  cases result with
  | error fault => cases passed
  | ok value => exact ⟨value, rfl, Except.ok.inj passed⟩

/-- An end of a text is an end of the text with another byte before it. -/
theorem suffix_past {rest text : Bytes} (b : UInt8) (ends : rest <:+ text) : rest <:+ b :: text :=
  ends.trans (List.suffix_cons b text)

/-- An end of a text is an end of the text with the six bytes of an escape before it. -/
theorem suffix_past_escape {rest text : Bytes} (a b c d e f : UInt8) (ends : rest <:+ text) :
    rest <:+ a :: b :: c :: d :: e :: f :: text :=
  ends.trans ⟨[a, b, c, d, e, f], rfl⟩

/-- What is left when blanks are dropped is an end of the text. -/
theorem dropBlank_suffix (text : Bytes) : dropBlank text <:+ text :=
  List.dropWhile_suffix _

/-- The first byte that is no blank is followed by an end of the text. -/
theorem suffix_of_dropBlank {text rest : Bytes} {b : UInt8} (found : dropBlank text = b :: rest) :
    rest <:+ text := by
  -- The byte is the first of what is left when blanks are dropped.
  have ends := dropBlank_suffix text
  rw [found] at ends
  exact (List.suffix_cons b rest).trans ends

/-- A word is passed over up to an end of the text. -/
theorem passesToEnd_readWord (word : List Char) : PassesToEnd (readWord word) := by
  -- Each letter of the word takes one byte.
  intro text rest passed
  fun_induction readWord word text <;> grind [suffix_past]

/-! ### Strings -/

/-- Bytes are put before what was read, and the rest of the text stays. -/
theorem exists_of_prepend {bytes value rest : Bytes} {read : Except Fault (Bytes × Bytes)}
    (passed : prepend bytes read = .ok (value, rest)) :
    ∃ more, read = .ok (more, rest) ∧ value = bytes ++ more := by
  -- Only what was read is changed, and only if it was read.
  cases read with
  | error fault => cases passed
  | ok pair =>
    cases passed
    exact ⟨_, rfl, rfl⟩

/-- The bytes of a string are read up to its closing quote. -/
theorem leavesEnd_readBytes : LeavesEnd readBytes := by
  -- Every byte and every escape stands before what is read next.
  intro text value rest passed
  fun_induction readBytes text generalizing value rest <;>
    grind [exists_of_prepend, suffix_past, suffix_past_escape]

/-- A string is read as its bytes are, and then tested for being UTF-8. -/
theorem leavesEnd_readString : LeavesEnd readString := by
  intro text value rest passed
  simp only [readString] at passed
  cases read : readBytes text with
  | error fault => simp [read] at passed
  | ok pair =>
    obtain ⟨bytes, left⟩ := pair
    simp only [read] at passed
    -- Only bytes that are characters are taken.
    split at passed
    · cases passed
      exact leavesEnd_readBytes read
    · cases passed

/-- A string is passed over up to its closing quote. -/
theorem passesToEnd_skipString : PassesToEnd skipString := by
  -- The steps are those of reading, with nothing to keep.
  intro text rest passed
  fun_induction skipString text <;> grind [suffix_past, suffix_past_escape]

/-! ### Numbers -/

/-- Digits are gathered from the beginning of a text. -/
theorem gather_suffix (n : Nat) (text : Bytes) : (gather n text).2.2 <:+ text := by
  -- Digits are gathered, counted or dropped, and the rest stays.
  fun_induction gather n text <;> grind [suffix_past, List.dropWhile_suffix]

/-- Scaling a number reads nothing. -/
theorem rest_of_scaled {negative : Bool} {significand : Nat} {exponent : Int} {text rest : Bytes}
    {number : Number} (read : scaled negative significand exponent text = .ok (number, rest)) :
    rest = text := by
  -- The text is handed on whether the number is in range or not.
  simp only [scaled] at read
  split at read <;> grind

section Numbers

variable (negative : Bool) (significand dropped : Nat) (exponent : Int) (down : Bool)

/-- The digits of an exponent are read, and dropped where it is too large. -/
theorem leavesEnd_readExponentDigits (gathered : Nat) :
    LeavesEnd (readExponentDigits negative significand exponent down gathered) := by
  -- Each digit takes one byte, and the number is scaled where they end.
  intro text number rest passed
  fun_induction readExponentDigits negative significand exponent down gathered text <;>
    grind [rest_of_scaled, suffix_past, List.dropWhile_suffix]

/-- An exponent is read from its first digit on. -/
theorem leavesEnd_readExponentFrom :
    LeavesEnd (readExponentFrom negative significand exponent down) := by
  -- Without a first digit there is no exponent.
  intro text number rest passed
  cases text with
  | nil => cases passed
  | cons b text =>
    simp only [readExponentFrom] at passed
    split at passed
    · exact suffix_past b (leavesEnd_readExponentDigits _ _ _ _ _ passed)
    · cases passed

/-- An exponent is read with its sign. -/
theorem leavesEnd_readExponent : LeavesEnd (readExponent negative significand exponent) := by
  -- A sign is passed if there is one.
  intro text number rest passed
  cases text with
  | nil => cases passed
  | cons b text =>
    simp only [readExponent] at passed
    split at passed
    · exact suffix_past b (leavesEnd_readExponentFrom _ _ _ _ passed)
    · split at passed
      · exact suffix_past b (leavesEnd_readExponentFrom _ _ _ _ passed)
      · -- Without a sign the digits begin at once.
        exact leavesEnd_readExponentFrom _ _ _ _ passed

/-- Behind a fraction an exponent may follow. -/
theorem leavesEnd_readAfterFraction :
    LeavesEnd (readAfterFraction negative significand exponent) := by
  -- What begins no exponent is left to whatever reads on.
  intro text number rest passed
  cases text with
  | nil => exact rest_of_scaled passed ▸ List.suffix_rfl
  | cons b text =>
    simp only [readAfterFraction] at passed
    split at passed
    · exact suffix_past b (leavesEnd_readExponent _ _ _ passed)
    · exact rest_of_scaled passed ▸ List.suffix_rfl

/-- A fraction is read with the exponent behind it. -/
theorem leavesEnd_readFraction : LeavesEnd (readFraction negative significand dropped) := by
  intro text number rest passed
  cases text with
  | nil => cases passed
  | cons b text =>
    -- The digits are gathered first, and an exponent may follow them.
    have gathered := gather_suffix significand (b :: text)
    simp only [readFraction] at passed
    split at passed
    · cases passed
    · exact (leavesEnd_readAfterFraction _ _ _ passed).trans gathered

/-- Behind the digits before a point, a fraction or an exponent may follow. -/
theorem leavesEnd_readAfterWhole : LeavesEnd (readAfterWhole negative significand dropped) := by
  -- A point, an exponent mark or what is no part of the number comes next.
  intro text number rest passed
  cases text with
  | nil =>
    simp only [readAfterWhole] at passed
    split at passed
    · cases passed
      exact List.suffix_rfl
    · exact rest_of_scaled passed ▸ List.suffix_rfl
  | cons b text =>
    simp only [readAfterWhole] at passed
    -- An exponent may follow the digits without a point.
    split at passed
    · exact suffix_past b (leavesEnd_readFraction _ _ _ passed)
    · split at passed
      · exact suffix_past b (leavesEnd_readExponent _ _ _ passed)
      · split at passed
        · cases passed
          exact List.suffix_rfl
        · exact rest_of_scaled passed ▸ List.suffix_rfl

/-- A number is read behind its sign. -/
theorem leavesEnd_readMagnitude : LeavesEnd (readMagnitude negative) := by
  intro text number rest passed
  cases text with
  | nil => cases passed
  | cons b text =>
    -- A zero stands alone, and other digits are gathered.
    have gathered := gather_suffix (digitValue b) text
    simp only [readMagnitude] at passed
    split at passed
    · split at passed
      · cases passed
      · exact suffix_past b (leavesEnd_readAfterWhole _ _ _ passed)
    · split at passed
      · exact suffix_past b ((leavesEnd_readAfterWhole _ _ _ passed).trans gathered)
      · cases passed

end Numbers

/-- A number is read with its sign. -/
theorem leavesEnd_readNumber : LeavesEnd readNumber := by
  -- A minus sign takes one byte, and there need not be one.
  intro text number rest passed
  cases text with
  | nil => cases passed
  | cons b text =>
    simp only [readNumber] at passed
    split at passed
    · exact suffix_past b (leavesEnd_readMagnitude _ passed)
    · exact leavesEnd_readMagnitude _ passed

/-- A number up to a bound is read as any number is. -/
theorem leavesEnd_readNatUpTo (bound : Nat) (wanted : String) :
    LeavesEnd (readNatUpTo bound wanted) := by
  -- Of all that is read only a number in range is taken.
  intro text n rest passed
  have blanks := dropBlank_suffix text
  simp only [readNatUpTo] at passed
  split at passed
  · cases passed
  · rename_i b more found
    rw [found] at blanks
    split at passed
    · cases read : readNumber (b :: more) with
      | error fault => simp [read] at passed
      | ok pair =>
        obtain ⟨number, left⟩ := pair
        have ends := leavesEnd_readNumber read
        -- A number with a sign or a fraction is read as well, but refused.
        cases number with
        | natural m =>
          simp only [read] at passed
          split at passed
          · cases passed
            exact ends.trans blanks
          · cases passed
        | negative m => simp [read] at passed
        | floating bits => simp [read] at passed
    · cases passed

/-- Changing what a reader answers leaves the rest of the text. -/
theorem LeavesEnd.map {β : Type} {read : Reader α} (leaves : LeavesEnd read) (change : α → β) :
    LeavesEnd fun text => (read text).map fun (value, rest) => (change value, rest) := by
  -- The change does not see the rest of the text.
  intro text value rest passed
  obtain ⟨_, result, same⟩ := exists_of_map passed
  exact (Prod.mk.inj same).2 ▸ leaves result

/-- An id is read as a number in its range. -/
theorem leavesEnd_readWord64 : LeavesEnd readWord64 :=
  (leavesEnd_readNatUpTo _ _).map UInt64.ofNat

/-- A byte is read as a number in its range. -/
theorem leavesEnd_readByte : LeavesEnd readByte :=
  (leavesEnd_readNatUpTo _ _).map UInt8.ofNat

/-! ### Values that are passed over -/

/-- The digits of an exponent are passed over. -/
theorem passesToEnd_skipExponentDigits : PassesToEnd skipExponentDigits := by
  -- There has to be one digit, and all that follow it are dropped.
  intro text rest passed
  cases text <;> grind [skipExponentDigits, suffix_past, List.dropWhile_suffix]

/-- An exponent is passed over with its sign. -/
theorem passesToEnd_skipExponent : PassesToEnd skipExponent := by
  intro text rest passed
  cases text with
  | nil => exact passesToEnd_skipExponentDigits passed
  | cons b text =>
    simp only [skipExponent] at passed
    -- A sign is passed if there is one.
    split at passed
    · exact suffix_past b (passesToEnd_skipExponentDigits passed)
    · exact passesToEnd_skipExponentDigits passed

/-- Behind a fraction an exponent is passed over. -/
theorem passesToEnd_skipAfterFraction : PassesToEnd skipAfterFraction := by
  -- What begins no exponent ends the number.
  intro text rest passed
  cases text with
  | nil => exact (Except.ok.inj passed) ▸ List.suffix_rfl
  | cons b text =>
    simp only [skipAfterFraction] at passed
    split at passed
    · exact suffix_past b (passesToEnd_skipExponent passed)
    · exact (Except.ok.inj passed) ▸ List.suffix_rfl

/-- A fraction is passed over with the exponent behind it. -/
theorem passesToEnd_skipFraction : PassesToEnd skipFraction := by
  intro text rest passed
  cases text with
  | nil => cases passed
  | cons b text =>
    simp only [skipFraction] at passed
    -- One digit has to follow the point, and all others are dropped.
    split at passed
    · exact suffix_past b
        ((passesToEnd_skipAfterFraction passed).trans (List.dropWhile_suffix _))
    · cases passed

/-- Behind the digits before a point, a fraction or an exponent is passed over. -/
theorem passesToEnd_skipAfterWhole : PassesToEnd skipAfterWhole := by
  -- A point, an exponent mark or what is no part of the number comes next.
  intro text rest passed
  cases text with
  | nil => exact (Except.ok.inj passed) ▸ List.suffix_rfl
  | cons b text =>
    simp only [skipAfterWhole] at passed
    split at passed
    · exact suffix_past b (passesToEnd_skipFraction passed)
    · split at passed
      · exact suffix_past b (passesToEnd_skipExponent passed)
      · exact (Except.ok.inj passed) ▸ List.suffix_rfl

/-- A number is passed over behind its sign. -/
theorem passesToEnd_skipMagnitude : PassesToEnd skipMagnitude := by
  intro text rest passed
  cases text with
  | nil => cases passed
  | cons b text =>
    simp only [skipMagnitude] at passed
    split at passed
    · -- No other digit may stand behind a zero.
      split at passed
      · cases passed
      · exact suffix_past b (passesToEnd_skipAfterWhole passed)
    · split at passed
      · exact suffix_past b
          ((passesToEnd_skipAfterWhole passed).trans (List.dropWhile_suffix _))
      · cases passed

/-- A scalar is passed over, and of a list or an object the bracket that opens it. -/
theorem leavesEnd_skipOpening : LeavesEnd skipOpening := by
  -- A bracket takes one byte; a word, a string or a number is passed over as such.
  intro text opening rest passed
  cases text with
  | nil => cases passed
  | cons b text =>
    simp only [skipOpening] at passed
    split at passed
    · cases passed
      exact List.suffix_cons _ _
    · split at passed
      · cases passed
        exact List.suffix_cons _ _
      · -- All others are scalars, and are passed over to their ends.
        obtain ⟨left, skipped, same⟩ := exists_of_map passed
        obtain rfl := (Prod.mk.inj same).2
        split at skipped
        · exact suffix_past b (passesToEnd_readWord _ skipped)
        · split at skipped
          · exact suffix_past b (passesToEnd_readWord _ skipped)
          · split at skipped
            · exact suffix_past b (passesToEnd_readWord _ skipped)
            · split at skipped
              · exact suffix_past b (passesToEnd_skipString skipped)
              · split at skipped
                · exact suffix_past b (passesToEnd_skipMagnitude skipped)
                · split at skipped
                  · exact passesToEnd_skipMagnitude skipped
                  · cases skipped

/-- What is closed behind a value are brackets at the beginning of the text. -/
theorem leavesEnd_settle (full : Bool) (outer : List Bracket) : LeavesEnd (settle full outer) := by
  -- Brackets are closed one after another, as far as they close.
  intro text left rest passed
  fun_induction settle full outer text with
  | case1 full text => exact (Prod.mk.inj (Except.ok.inj passed)).2 ▸ List.suffix_rfl
  | case2 => cases passed
  | case3 full bracket outer text b more found _ =>
    cases passed
    -- A comma takes one byte, and the bracket stays open.
    exact suffix_of_dropBlank found
  | case4 full bracket outer text more found _ ih => exact (ih passed).trans (suffix_of_dropBlank found)
  | case5 => cases passed
  | case6 full bracket outer text b more found =>
    cases passed
    exact found ▸ dropBlank_suffix text

/-- A colon is passed over with the blanks before it. -/
theorem passesToEnd_skipColon : PassesToEnd skipColon := by
  -- The first byte that is no blank has to be the colon.
  intro text rest passed
  simp only [skipColon] at passed
  split at passed
  · cases passed
  · split at passed
    · rename_i found _
      cases passed
      exact suffix_of_dropBlank found
    · cases passed

/-- A key is a string and the colon behind it. -/
theorem skipKey_eq (text : Bytes) : skipKey text =
    match dropBlank text with
    | [] => .error (Cause.endInObject.before [])
    | b :: rest =>
      if b ≠ byte '"' then .error (Cause.keyNotText.onFirst (b :: rest))
      else
        match skipString rest with
        | .error fault => .error fault
        | .ok rest => skipColon rest :=
  rfl

/-- A key is passed over with the colon behind it. -/
theorem passesToEnd_skipKey : PassesToEnd skipKey := by
  intro text rest passed
  rw [skipKey_eq] at passed
  split at passed
  · cases passed
  · rename_i found
    split at passed
    · cases passed
    · split at passed
      · cases passed
      · rename_i skipped
        -- The blanks, the string and the colon are passed one after another.
        exact (passesToEnd_skipColon passed).trans
          ((passesToEnd_skipString skipped).trans (suffix_of_dropBlank found))

/-- What is left to do behind a value: the brackets that stay open go on with another value, if any. -/
def goOn (steps : Nat) : Except Fault (List Bracket × Bytes) → Except Fault Bytes
  | .error fault => .error fault
  | .ok ([], rest) => .ok rest
  | .ok (.list :: outer, rest) => skipWithin steps (.list :: outer) rest
  | .ok (.object :: outer, rest) =>
    match skipKey rest with
    | .error fault => .error fault
    | .ok rest => skipWithin steps (.object :: outer) rest

/-- One step passes over a scalar or opens a bracket. -/
theorem skipWithin_succ (steps : Nat) (outer : List Bracket) (text : Bytes) :
    skipWithin (steps + 1) outer text =
      match skipOpening (dropBlank text) with
      | .error fault => .error fault
      | .ok (.scalar, rest) => goOn steps (settle true outer rest)
      | .ok (.bracket bracket, rest) => goOn steps (settle false (bracket :: outer) rest) := by
  -- The two sides branch on the same results.
  rw [skipWithin]
  rcases skipOpening (dropBlank text) with fault | ⟨_ | bracket, rest⟩
  · rfl
  · rcases settle true outer rest with fault | ⟨_ | ⟨_ | _, outer⟩, rest⟩ <;> rfl
  · rcases settle false (bracket :: outer) rest with fault | ⟨_ | ⟨_ | _, outer⟩, rest⟩ <;> rfl

/-- What is left to do behind a value passes over a beginning, if values do so in fewer steps. -/
theorem suffix_of_goOn {steps : Nat} (inner : ∀ outer, PassesToEnd (skipWithin steps outer))
    {full : Bool} {outer : List Bracket} {text rest : Bytes}
    (passed : goOn steps (settle full outer text) = .ok rest) : rest <:+ text := by
  -- The brackets that are open decide what comes next.
  rcases closed : settle full outer text with fault | ⟨brackets, left⟩
  · rw [closed] at passed
    cases passed
  · rw [closed] at passed
    have ends := leavesEnd_settle _ _ closed
    rcases brackets with _ | ⟨_ | _, outer⟩
    · cases passed
      -- Nothing is open, and the value has ended.
      exact ends
    · -- In a list the next value follows.
      exact (inner _ passed).trans ends
    · -- In an object the key of the next value comes first.
      simp only [goOn] at passed
      split at passed
      · cases passed
      · rename_i key
        exact (inner _ passed).trans ((passesToEnd_skipKey key).trans ends)

/-- A value is passed over, with all that is open around it. -/
theorem passesToEnd_skipWithin (steps : Nat) (outer : List Bracket) :
    PassesToEnd (skipWithin steps outer) := by
  -- Each step opens a value, closes what it can and passes the key of the next value.
  induction steps generalizing outer with
  | zero =>
    intro text rest passed
    -- Without steps nothing is passed over.
    cases passed
  | succ steps ih =>
    intro text rest passed
    rw [skipWithin_succ] at passed
    split at passed
    · cases passed
    · rename_i opened
      exact (suffix_of_goOn ih passed).trans
        ((leavesEnd_skipOpening opened).trans (dropBlank_suffix text))
    · rename_i opened
      exact (suffix_of_goOn ih passed).trans
        ((leavesEnd_skipOpening opened).trans (dropBlank_suffix text))

/-- A value is passed over up to its end. -/
theorem passesToEnd_skipValue : PassesToEnd skipValue :=
  fun _ _ passed => passesToEnd_skipWithin _ _ passed

/-! ### Lists of bytes -/

/-- What comes before an element of a list is at the beginning of the text. -/
theorem leavesEnd_nextElement (first : Bool) : LeavesEnd (nextElement first) := by
  -- Blanks may come first, then a comma or the closing bracket.
  intro text place rest passed
  have blanks := dropBlank_suffix text
  simp only [nextElement] at passed
  split at passed
  · cases passed
  · rename_i b more found
    rw [found] at blanks
    split at passed
    · cases passed
      exact blanks
    · split at passed
      · cases passed
        exact blanks
      · split at passed
        · split at passed
          · cases passed
          · rename_i next
            split at passed
            · cases passed
            · cases passed
              -- Behind the comma blanks may come again.
              exact (next ▸ dropBlank_suffix more).trans ((List.suffix_cons _ _).trans blanks)
        · cases passed

/-- The elements of a list are read up to its closing bracket. -/
theorem leavesEnd_readElements (steps : Nat) (first : Bool) :
    LeavesEnd (readElements steps first) := by
  -- Each step passes what comes before an element, and reads it.
  intro text octets rest passed
  induction steps generalizing first text octets with
  | zero => cases passed
  | succ steps ih =>
    rw [readElements] at passed
    split at passed
    · cases passed
    · rename_i left next
      cases passed
      -- The closing bracket is passed with the list.
      exact (List.drop_suffix 1 left).trans (leavesEnd_nextElement _ next)
    · rename_i left next
      split at passed
      · cases passed
      · rename_i b more read
        obtain ⟨others, passed, _⟩ := exists_of_prepend passed
        exact (ih _ passed).trans ((leavesEnd_readByte read).trans (leavesEnd_nextElement _ next))

/-- Bytes are read as a list of numbers. -/
theorem leavesEnd_readOctets : LeavesEnd readOctets := by
  -- The opening bracket comes first, and the elements follow.
  intro text octets rest passed
  simp only [readOctets] at passed
  split at passed
  · cases passed
  · rename_i found
    split at passed
    · exact (leavesEnd_readElements _ _ passed).trans (suffix_of_dropBlank found)
    · cases passed

/-! ### Objects -/

/-- Where another key is found, an end of the text follows; a closing brace is found in the text. -/
theorem leavesEnd_nextKey (first : Bool) : LeavesEnd (nextKey first) := by
  intro text place rest passed
  have blanks := dropBlank_suffix text
  simp only [nextKey] at passed
  split at passed
  · cases passed
  · rename_i b more found
    rw [found] at blanks
    -- The first byte may be a comma, a quote or the closing brace, which stays.
    have past := (List.suffix_cons b more).trans blanks
    split at passed
    · cases passed
      exact blanks
    · split at passed
      · split at passed
        · cases passed
          exact past
        · cases passed
      · split at passed
        · split at passed
          · cases passed
          · rename_i next
            split at passed
            · cases passed
              exact (suffix_of_dropBlank next).trans past
            · split at passed <;> cases passed
        · cases passed

/-- An object goes on at its closing byte only if that byte is next. -/
theorem nextKey_closing {first : Bool} {text rest : Bytes}
    (closes : nextKey first text = .ok (.closing, rest)) : byte '\x7d' ∈ rest := by
  -- In all other cases a key is found, or there is a fault.
  simp only [nextKey] at closes
  split at closes
  · cases closes
  · split at closes
    · rename_i same
      cases closes
      exact same ▸ List.mem_cons_self
    · split at closes
      · split at closes <;> cases closes
      · split at closes
        · split at closes
          · cases closes
          · split at closes
            · cases closes
            · split at closes <;> cases closes
        · cases closes

/-- Whether the values of all fields are read up to ends of their texts. -/
def FieldsLeaveEnds (fields : List (Field δ)) : Prop :=
  ∀ field ∈ fields, ∀ draft, LeavesEnd (field.fill draft)

/-- The value of a name that is not known is passed over behind its colon. -/
theorem passesToEnd_skipMember : PassesToEnd skipMember := by
  -- The colon comes first.
  intro text rest passed
  simp only [skipMember] at passed
  split at passed
  · cases passed
  · rename_i colon
    exact (passesToEnd_skipValue passed).trans (passesToEnd_skipColon colon)

/-- The value of a field is read behind its colon. -/
theorem leavesEnd_readFieldValue {field : Field δ} {draft : δ}
    (leaves : LeavesEnd (field.fill draft)) : LeavesEnd (readFieldValue field draft) := by
  -- The colon comes first, and the field says how its value is read.
  intro text next rest passed
  simp only [readFieldValue] at passed
  split at passed
  · cases passed
  · rename_i colon
    exact (leaves passed).trans (passesToEnd_skipColon colon)

/-- A member is read up to the end of its value. -/
theorem readMember_suffix {fields : List (Field δ)} (leave : FieldsLeaveEnds fields)
    {draft next : δ} {text rest : Bytes} (passed : readMember fields draft text = .ok (next, rest)) :
    rest <:+ text := by
  -- The name decides how the value is read.
  simp only [readMember] at passed
  split at passed
  · cases passed
  · rename_i key left named
    have ends := leavesEnd_readString named
    split at passed
    · -- The value of a name that is not known is passed over.
      split at passed
      · cases passed
      · rename_i skipped
        cases passed
        exact (passesToEnd_skipMember skipped).trans ends
    · rename_i field found
      split at passed
      · cases passed
      · split at passed
        · cases passed
        · rename_i read
          cases passed
          -- The field is one of those whose values end within the text.
          have leaves := leave field (List.mem_of_find?_eq_some found) draft
          exact (leavesEnd_readFieldValue leaves read).trans ends

/-- Members are read only up to a closing brace. -/
theorem closed_of_readMembers {fields : List (Field δ)} (leave : FieldsLeaveEnds fields)
    {steps : Nat} {first : Bool} {draft ends : δ} {text rest : Bytes}
    (passed : readMembers fields steps first draft text = .ok (ends, rest)) :
    byte '\x7d' ∈ text := by
  -- The brace is found behind the last member, in what is left of the text there.
  induction steps generalizing first draft text with
  | zero => cases passed
  | succ steps ih =>
    rw [readMembers] at passed
    split at passed
    · cases passed
    · rename_i closes
      -- No other member follows.
      exact (leavesEnd_nextKey _ closes).subset (nextKey_closing closes)
    · rename_i next
      split at passed
      · cases passed
      · rename_i member
        -- What is left behind this member ends the text, and the others are read from it.
        have suffix := (readMember_suffix leave member).trans (leavesEnd_nextKey _ next)
        exact suffix.subset (ih passed)

/-- A text that begins with an opening brace and is read as a value with fields is closed. -/
theorem Shape.closed_of_read {shape : Shape α} (leave : FieldsLeaveEnds shape.fields)
    {text rest : Bytes} {value : α}
    (passed : shape.read (byte '\x7b' :: text) = .ok (value, rest)) : byte '\x7d' ∈ text := by
  -- The brace is no blank, and it begins an object.
  have opening : isBlank (byte '\x7b') = false := by decide
  simp only [Shape.read, dropBlank, List.dropWhile_cons, opening, Bool.false_eq_true, if_false,
    if_true, Shape.readObject] at passed
  split at passed
  · cases passed
  · cases passed
  · rename_i members
    exact closed_of_readMembers leave members

end KeyDispensary.Json
