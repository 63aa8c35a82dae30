import KeyDispensary.Identity.Text
import KeyDispensary.Proofs.Keys.Layout
import KeyDispensary.Proofs.Text.Hex
import Mathlib

/-!
Which texts name an identity, and in which order. Main statements: `Identity.parse_eq_ok_iff`, by which
exactly the written forms are parsed, and `Identity.text_lt_iff`.
-/

namespace KeyDispensary.Identity

variable {digits text lead : List Char} {sizes : List Nat}

/-- Digits in parts of the given lengths that are joined by hyphens. -/
def IsJoined (sizes : List Nat) (digits text : List Char) : Prop :=
  -- The parts make up the digits, and with hyphens between them they make up the text.
  ∃ parts : List (List Char), parts.map List.length = sizes ∧ parts.flatten = digits ∧
    List.intercalate ['-'] parts = text

/-- The written forms of digits. -/
inductive IsForm (IsLead : List Char → Prop) (digits : List Char) : List Char → Prop where
  /-- The digits alone. -/
  | plain : digits.length = groups.sum → IsForm IsLead digits digits
  /-- Five groups. -/
  | grouped {text : List Char} : IsJoined groups digits text → IsForm IsLead digits text
  /-- Five groups in braces. -/
  | braced {text : List Char} : IsJoined groups digits text →
    IsForm IsLead digits ('\x7b' :: text ++ ['\x7d'])
  /-- Five groups after a lead. -/
  | named {lead text : List Char} : IsLead lead → IsJoined groups digits text →
    IsForm IsLead digits (lead ++ text)

/-- Whether a text is a written form of an identity, with digits of either case. -/
def Names (IsLead : List Char → Prop) (identity : Identity) (text : String) : Prop :=
  ∃ digits, digits.map Char.toLower = Hex.encode identity.octets ∧ IsForm IsLead digits text.toList

/-- Whether a lead is `urn:uuid:` with letters of either case. -/
def IsUrnLead (lead : List Char) : Prop :=
  lead.map Char.toLower = urnLead

/-! ### Groups -/

/-- Digits that are joined are as many as their parts have. -/
theorem IsJoined.length_digits (joined : IsJoined sizes digits text) : digits.length = sizes.sum := by
  obtain ⟨parts, rfl, rfl, _⟩ := joined
  exact List.length_flatten

/-- Of one part nothing is left but the part itself. -/
theorem isJoined_single {size : Nat} :
    IsJoined [size] digits text ↔ digits.length = size ∧ text = digits := by
  constructor
  · intro joined
    obtain ⟨parts, lengths, rfl, rfl⟩ := joined
    -- One length leaves one part.
    obtain ⟨part, rfl, rfl⟩ := List.map_eq_singleton_iff.1 lengths
    simp
  · intro whole
    obtain ⟨rfl, rfl⟩ := whole
    exact ⟨[text], rfl, by simp, by simp⟩

/-- Of several parts the first stands before a hyphen. -/
theorem isJoined_cons {size next : Nat} {more : List Nat} :
    IsJoined (size :: next :: more) digits text ↔ ∃ part digits' text', part.length = size ∧
      digits = part ++ digits' ∧ text = part ++ '-' :: text' ∧
        IsJoined (next :: more) digits' text' := by
  constructor
  · intro joined
    obtain ⟨parts, lengths, rfl, rfl⟩ := joined
    obtain ⟨part, parts, rfl, first, lengths⟩ := List.map_eq_cons_iff.1 lengths
    obtain ⟨second, others, rfl, _⟩ := List.map_eq_cons_iff.1 lengths
    -- There is a second part, so a hyphen follows the first.
    refine ⟨part, _, _, first, List.flatten_cons, ?_, second :: others, lengths, rfl, rfl⟩
    rw [List.intercalate_cons_cons, List.append_assoc]
    rfl
  · intro cut
    obtain ⟨part, _, _, first, rfl, rfl, parts, lengths, rfl, rfl⟩ := cut
    -- The part is put before the others, of which there is one.
    obtain ⟨second, others, rfl, _⟩ := List.map_eq_cons_iff.1 lengths
    refine ⟨part :: second :: others, by rw [List.map_cons, first, lengths], List.flatten_cons, ?_⟩
    rw [List.intercalate_cons_cons, List.append_assoc]
    rfl

/-- Taking hyphens out finds the digits of parts that are joined, and fails on any other text. -/
theorem unjoin?_eq_some_iff {size : Nat} {more : List Nat} :
    unjoin? (size :: more) text = some digits ↔ IsJoined (size :: more) digits text := by
  induction more generalizing size digits text with
  | nil =>
    rw [isJoined_single, unjoin?]
    split
    · next full => grind
    · next short => grind
  | cons next more ih =>
    rw [isJoined_cons, unjoin?]
    · constructor
      · intro found
        split at found
        · next rest behind =>
          obtain ⟨digits', search, rfl⟩ := Option.map_eq_some_iff.1 found
          -- A hyphen follows the first part, so that part is complete.
          have full : (text.take size).length = size := by
            have longer : (text.drop size).length = rest.length + 1 := congrArg List.length behind
            rw [List.length_drop] at longer
            rw [List.length_take]
            omega
          refine ⟨text.take size, digits', rest, full, rfl, ?_, ih.1 search⟩
          rw [← behind, List.take_append_drop]
        · -- Without a hyphen behind the first part nothing is found.
          cases found
      · intro joined
        obtain ⟨part, digits', rest, rfl, rfl, rfl, joined⟩ := joined
        -- The first part is cut off where it ends.
        rw [List.drop_left, List.take_left]
        simp only [ih.2 joined, Option.map_some]
    · simp

/-- Between the parts of a text stand as many hyphens as there are parts after the first. -/
theorem IsJoined.length_text {size : Nat} {more : List Nat}
    (joined : IsJoined (size :: more) digits text) : text.length = digits.length + more.length := by
  induction more generalizing size digits text with
  | nil =>
    -- One part stands alone.
    obtain ⟨_, rfl⟩ := isJoined_single.1 joined
    rfl
  | cons next more ih =>
    -- One hyphen stands behind the first part.
    obtain ⟨part, digits', text', _, rfl, rfl, others⟩ := isJoined_cons.1 joined
    have later := ih others
    simp only [List.length_append, List.length_cons]
    omega

/-- Five groups of digits with hyphens between them. -/
theorem IsJoined.length_grouped (joined : IsJoined groups digits text) :
    digits.length = 32 ∧ text.length = 36 := by
  -- Five groups have four hyphens between them.
  have full : digits.length = 32 := joined.length_digits
  have longer : text.length = digits.length + 4 := joined.length_text
  omega

/-- Joining digits of the right number puts hyphens between parts of them. -/
theorem isJoined_join {size : Nat} {more : List Nat} (full : digits.length = (size :: more).sum) :
    IsJoined (size :: more) digits (join (size :: more) digits) := by
  -- The first part is cut off, and the others are joined by the same rule.
  induction more generalizing size digits with
  | nil => exact isJoined_single.2 ⟨by simpa using full, rfl⟩
  | cons next more ih =>
    -- What is left of the digits is enough for the other parts.
    rw [List.sum_cons] at full
    have others : (digits.drop size).length = (next :: more).sum := by
      rw [List.length_drop]
      omega
    refine isJoined_cons.2 ⟨digits.take size, digits.drop size, _, ?_,
      (List.take_append_drop size digits).symm, rfl, ih others⟩
    rw [List.length_take]
    omega

/-- Joining keeps the order of digits. -/
theorem join_lt_iff {size : Nat} {more : List Nat} {left right : List Char}
    (same : left.length = right.length) :
    join (size :: more) left < join (size :: more) right ↔ left < right := by
  -- The induction is on the parts, whose lengths are the same on both sides.
  induction more generalizing size left right with
  | nil => rfl
  | cons next more ih =>
    -- The first parts decide, and where they are the same hyphens and the other parts follow.
    have first : (left.take size).length = (right.take size).length := by
      rw [List.length_take, List.length_take, same]
    have others : (left.drop size).length = (right.drop size).length := by
      rw [List.length_drop, List.length_drop, same]
    have whole : left.take size ++ left.drop size < right.take size ++ right.drop size ↔ _ :=
      append_lt_append_iff first
    rw [List.take_append_drop, List.take_append_drop] at whole
    change left.take size ++ '-' :: join (next :: more) (left.drop size) <
      right.take size ++ '-' :: join (next :: more) (right.drop size) ↔ left < right
    rw [append_lt_append_iff first, List.cons_lt_cons_iff, ih others, whole]
    simp

/-! ### Written forms -/

/-- A text in braces is a brace, what stands in them, and a brace. -/
theorem unbrace?_eq_some_iff {body : List Char} :
    unbrace? text = some body ↔ text = '\x7b' :: body ++ ['\x7d'] := by
  constructor
  · intro found
    unfold unbrace? at found
    split at found
    · next rest =>
      split at found
      · next last =>
        obtain rfl := Option.some.inj found
        -- The last character is the closing brace.
        obtain ⟨before, rfl⟩ := List.getLast?_eq_some_iff.1 last
        rw [List.dropLast_concat]
        rfl
      · cases found
    · cases found
  · -- Both braces are taken off again.
    intro braced
    subst braced
    simp [unbrace?]

/-- What is written as `urn:uuid:` is has its length. -/
theorem IsUrnLead.length (isLead : IsUrnLead lead) : lead.length = 9 := by
  have same : (lead.map Char.toLower).length = urnLead.length := congrArg List.length isLead
  rwa [List.length_map] at same

/-- What stands after a lead is the rest of the text. -/
theorem afterUrn?_eq_some_iff {rest : List Char} :
    afterUrn? text = some rest ↔ ∃ lead, IsUrnLead lead ∧ text = lead ++ rest := by
  constructor
  · -- The characters that were compared are the lead.
    intro found
    rw [afterUrn?] at found
    split at found
    · next same =>
      obtain rfl := Option.some.inj found
      exact ⟨text.take urnLead.length, same, (List.take_append_drop _ _).symm⟩
    · cases found
  · rintro ⟨lead, same, rfl⟩
    -- As many characters are taken as the lead has.
    have full : lead.length = urnLead.length := IsUrnLead.length same
    rw [afterUrn?, ← full, List.take_left, List.drop_left]
    exact if_pos same

/-- Digits are found only in a text that is a written form of them. -/
theorem isForm_of_digits? (found : digits? text = some digits) : IsForm IsUrnLead digits text := by
  -- The length of the text says which form it could have.
  rw [digits?] at found
  split at found
  · -- Digits alone are found as they are.
    next full =>
    obtain rfl := Option.some.inj found
    exact .plain full
  · split at found
    · exact .grouped (unjoin?_eq_some_iff.1 found)
    · split at found
      · -- The groups are what stands in the braces.
        obtain ⟨body, inner, joined⟩ := Option.bind_eq_some_iff.1 found
        obtain rfl := unbrace?_eq_some_iff.1 inner
        exact .braced (unjoin?_eq_some_iff.1 joined)
      · split at found
        · -- The groups are what stands after the lead.
          obtain ⟨rest, after, joined⟩ := Option.bind_eq_some_iff.1 found
          obtain ⟨lead, isLead, rfl⟩ := afterUrn?_eq_some_iff.1 after
          exact .named isLead (unjoin?_eq_some_iff.1 joined)
        · -- No form has any other length.
          cases found

/-- The digits of a written form are found. -/
theorem IsForm.digits?_eq (form : IsForm IsUrnLead digits text) : digits? text = some digits := by
  -- The forms have different lengths, and each is taken apart as it was put together.
  cases form with
  | plain full => exact if_pos full
  | grouped joined =>
    obtain ⟨_, long⟩ := joined.length_grouped
    rw [digits?, if_neg (by omega), if_pos long]
    exact unjoin?_eq_some_iff.2 joined
  | @braced body joined =>
    -- Two braces are added to the groups.
    obtain ⟨_, long⟩ := joined.length_grouped
    have length : ('\x7b' :: body ++ ['\x7d']).length = 38 := by simp [long]
    rw [digits?, if_neg (by omega), if_neg (by omega), if_pos length,
      unbrace?_eq_some_iff.2 rfl]
    exact unjoin?_eq_some_iff.2 joined
  | @named lead body isLead joined =>
    -- The lead is added to the groups.
    obtain ⟨_, long⟩ := joined.length_grouped
    have length : (lead ++ body).length = 45 := by
      rw [List.length_append, isLead.length, long]
    rw [digits?, if_neg (by omega), if_neg (by omega), if_neg (by omega), if_pos length,
      afterUrn?_eq_some_iff.2 ⟨lead, isLead, rfl⟩]
    exact unjoin?_eq_some_iff.2 joined

/-- The digits of a text are found exactly if the text is a written form of them. -/
theorem digits?_eq_some_iff : digits? text = some digits ↔ IsForm IsUrnLead digits text :=
  ⟨isForm_of_digits?, IsForm.digits?_eq⟩

/-- Digits are read as an identity exactly if they are the digits of its bytes in either case. -/
theorem ofDigits?_eq_some_iff {identity : Identity} :
    ofDigits? digits = some identity ↔ digits.map Char.toLower = Hex.encode identity.octets := by
  rw [← Hex.decode?_eq_some_iff, ofDigits?]
  constructor
  · intro found
    split at found
    · next octets decoded =>
      split at found
      · -- What is read are the bytes of the identity.
        obtain rfl := Option.some.inj found
        exact decoded
      · cases found
    · cases found
  · intro decoded
    rw [decoded]
    -- An identity has sixteen bytes.
    exact dif_pos identity.length_octets

/-- A text is parsed as an identity exactly if it is a written form of it. -/
theorem parse_eq_ok_iff {text : String} {identity : Identity} :
    parse text = .ok identity ↔ Names IsUrnLead identity text := by
  have parsed : parse text = .ok identity ↔
      (digits? text.toList).bind ofDigits? = some identity := by
    rw [parse]
    split
    · next found => rw [found, Except.ok.injEq, Option.some.injEq]
    · -- A text without digits is refused.
      next missing => simp [missing]
  -- The digits are found first, and then they are read as bytes.
  rw [parsed, Option.bind_eq_some_iff]
  constructor
  · intro both
    obtain ⟨digits, found, read⟩ := both
    exact ⟨digits, ofDigits?_eq_some_iff.1 read, digits?_eq_some_iff.1 found⟩
  · intro named
    obtain ⟨digits, spelled, form⟩ := named
    exact ⟨digits, digits?_eq_some_iff.2 form, ofDigits?_eq_some_iff.2 spelled⟩

/-! ### Order -/

/-- Two digits stand for each of the sixteen bytes of an identity. -/
theorem length_digits (identity : Identity) : (Hex.encode identity.octets).length = 32 := by
  rw [Hex.length_encode, identity.length_octets]

/-- The text of an identity is its digits in five groups. -/
theorem isJoined_text (identity : Identity) :
    IsJoined groups (Hex.encode identity.octets) identity.text.toList := by
  rw [text, String.toList_ofList]
  exact isJoined_join identity.length_digits

/-- Identities come in the order of their texts. -/
theorem text_lt_iff {first second : Identity} : first.text < second.text ↔ first < second := by
  have same : (Hex.encode first.octets).length = (Hex.encode second.octets).length := by
    rw [length_digits, length_digits]
  -- Neither the hyphens nor the digits change the order of the bytes.
  change first.text.toList < second.text.toList ↔ first.octets < second.octets
  rw [text, text, String.toList_ofList, String.toList_ofList, groups, join_lt_iff same,
    Hex.encode_lt_iff]

/--
Exactly the written forms of an identity are parsed as it, one of them is its text, and identities are in
the order of their partitions and in that of their texts.
-/
theorem named_in_order :
    (∀ (identity : Identity) (text : String),
      parse text = .ok identity ↔ Names IsUrnLead identity text) ∧
    (∀ identity : Identity, IsJoined groups (Hex.encode identity.octets) identity.text.toList ∧
      (Hex.encode identity.octets).map Char.toLower = Hex.encode identity.octets) ∧
    ∀ first second : Identity, (first < second ↔ first.partition < second.partition) ∧
      (first < second ↔ first.text < second.text) ∧
      (first = second ↔ first.partition = second.partition) := by
  refine ⟨fun identity text => parse_eq_ok_iff, fun identity => ?_, fun first second => ?_⟩
  · exact ⟨identity.isJoined_text, Hex.lower_encode identity.octets⟩
  · -- The partition of an identity is its bytes.
    exact ⟨Iff.rfl, text_lt_iff.symm, congrArg partition, eq_of_partition⟩

/-- What is as long as a name and is written with `urn:uuid:` itself begins with a small letter. -/
theorem IsForm.head?_of_long (form : IsForm (· = urnLead) digits text) (long : text.length = 45) :
    text.head? = some 'u' := by
  -- The other forms are shorter.
  cases form with
  | plain full => cases full.symm.trans long
  | grouped joined => cases joined.length_grouped.2.symm.trans long
  | braced joined =>
    have short := joined.length_grouped.2
    simp [short] at long
  | named isLead joined =>
    rw [isLead]
    rfl

/-- A name in capital letters is parsed, although it does not begin with `urn:uuid:` itself. -/
theorem capital_name_parsed :
    let identity : Identity :=
      ⟨[0, 17, 34, 51, 68, 85, 102, 119, 136, 153, 170, 187, 204, 221, 238, 255], rfl⟩
    let text := "URN:UUID:00112233-4455-6677-8899-aabbccddeeff"
    parse text = .ok identity ∧ ¬ Names (· = urnLead) identity text := by
  refine ⟨rfl, ?_⟩
  rintro ⟨digits, spelled, form⟩
  -- The text is as long as a name but begins with a capital letter.
  exact absurd (form.head?_of_long (by decide)) (by decide)

end KeyDispensary.Identity
